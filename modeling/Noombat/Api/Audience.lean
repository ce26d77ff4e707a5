import Mathlib.Data.List.Dedup
import Noombat.Api.Outbox
import Noombat.Federation.FollowRows
import Noombat.Federation.Following

/-!
# The audience of a post

Who may read a post is decided when it is asked for, by the standing of the reader towards
its author; whom it is delivered to, when it is published, by the follows.  Each tier admits
its followers to what is delivered to them, except the tier of the connections: a post of
that tier is delivered to the followers too.
-/

namespace Api

open Authorisation (Relationship postVisibleTo postVisibleTo_author postVisibleTo_followers
  postVisibleTo_connections)
open Federation (Uuid DateTime NoombatError Actor Post Visibility Delivery NewPost FedRequest
  SigningExternal fedWorld asPublic signAsActor)
open Fallible Program

/-! ### Standing -/

/-- An actor takes deliveries at an inbox: the one its instance shares, or its own. -/
def TakesDeliveries (a : Actor) (inbox : String) : Prop :=
  a.sharedInboxUrl = some inbox ∨ a.inboxUrl.getD s!"{a.apId}/inbox" = inbox

instance (a : Actor) (inbox : String) : Decidable (TakesDeliveries a inbox) :=
  inferInstanceAs (Decidable (_ ∨ _))

theorem takesDeliveries_deliveryInbox (a : Actor) :
  TakesDeliveries a a.deliveryInbox
  := by
  rw [TakesDeliveries, Actor.deliveryInbox]
  cases hshared : a.sharedInboxUrl with
  | none =>
      right
      rfl
  | some inbox =>
      left
      rfl

namespace Db

variable (db : Db)

/-- A post may be delivered to an inbox: to that of an actor who may read it or of the author
of the post it answers, and, if anyone may read it, to that of a relay. -/
inductive MayReceive (post : Post) (inbox : String) : Prop
  | reader {a : Actor} : a ∈ db.actors → TakesDeliveries a inbox →
      postVisibleTo post.visibility (some a.id) post.actorId
        (db.graph.relationship a.id post.actorId) = true → MayReceive post inbox
  | answered {uri : String} {a : Actor} : post.inReplyTo = some uri → db.authorOf uri = some a →
      TakesDeliveries a inbox → MayReceive post inbox
  | relay {r : Federation.RelaySubscription} : r ∈ db.relaySubscriptions → r.inboxUrl = inbox →
      postVisibleTo post.visibility none post.actorId .NONE = true → MayReceive post inbox

end Db

/-! ### Frames -/

/-- What decides on the audience of a post is as it was, and the queue has grown. -/
structure Queued (db db' : Federation.Db) (new : List Delivery) : Prop where
  actors : db'.actors = db.actors
  posts : db'.posts = db.posts
  follows : db'.follows = db.follows
  relays : db'.relaySubscriptions = db.relaySubscriptions
  queue : db'.deliveryQueue = db.deliveryQueue ++ new

theorem Queued.refl (db : Federation.Db) :
  Queued db db []
  := ⟨rfl, rfl, rfl, rfl, (List.append_nil _).symm⟩

theorem Queued.trans {db db' db'' : Federation.Db} {new new' : List Delivery}
    (h : Queued db db' new) (h' : Queued db' db'' new') :
  Queued db db'' (new ++ new')
  := by
  constructor
  · rw [h'.actors, h.actors]
  · rw [h'.posts, h.posts]
  · rw [h'.follows, h.follows]
  · rw [h'.relays, h.relays]
  · rw [h'.queue, h.queue, List.append_assoc]

/-- The request queues nothing, and changes nothing that decides on the audience of a post. -/
def ApiRequest.Idle (q : ApiRequest) : Prop :=
  ∀ c db, Queued db.toDb (apiWorld.exec q c db).2.toDb []

theorem idle_sql (s : ApiSql) :
  (ApiRequest.sql s).Idle
  := by
  intro c db
  cases c with
  | some e => exact .refl _
  | none => cases s <;> exact .refl _

theorem idle_newUuid :
  ApiRequest.newUuid.Idle
  := fun _ _ => .refl _

theorem idle_consults {q : FedRequest} (h : q.consults = true) :
  (ApiRequest.fed q).Idle
  := by
  intro c db
  change Queued db.toDb (fedWorld.exec q c db.toDb).2 []
  cases q with
  | sql s =>
      simp only [fedWorld]
      split
      · exact .refl _
      · cases s with
        | insertTombstone apId =>
            simp only [Federation.Sql.exec, Federation.Db.insertTombstone]
            split
            · exact .refl _
            · exact ⟨rfl, rfl, rfl, rfl, (List.append_nil _).symm⟩
        | _ => first | exact .refl _ | cases h
  | _ => exact .refl _

/-- A statement of a handler that fails, or changes other tables. -/
theorem idle_fed_sql {s : Federation.Sql}
    (h : ∀ pick db, Queued db (s.exec pick db).2 []) :
  (ApiRequest.fed (.sql s)).Idle
  := by
  intro c db
  change Queued db.toDb (fedWorld.exec (.sql s) c db.toDb).2 []
  simp only [fedWorld]
  split
  · exact .refl _
  · exact h _ _

theorem idle_upsertHashtags (names : List String) :
  (ApiRequest.fed (.sql (.upsertHashtags names))).Idle
  := by
  apply idle_fed_sql
  intro pick db
  rw [Federation.Sql.exec, Federation.Db.upsertHashtags]
  split
  · exact ⟨rfl, rfl, rfl, rfl, (List.append_nil _).symm⟩
  · exact .refl _

theorem idle_linkHashtags (postId : Uuid) (ids : List Uuid) :
  (ApiRequest.fed (.sql (.linkHashtags postId ids))).Idle
  := by
  apply idle_fed_sql
  intro pick db
  rw [Federation.Sql.exec, Federation.Db.linkHashtags]
  split
  · exact ⟨rfl, rfl, rfl, rfl, (List.append_nil _).symm⟩
  · exact .refl _

theorem every_clock :
  Every ApiRequest.Idle (fed Federation.utcNow).run
  := every_fed ((every_run_ask _).mpr (idle_consults rfl))

section Frames

variable {C : Condition apiWorld} {α : Type}

theorem wp_idle {p : Route α} (h : Every ApiRequest.Idle p.run) (db : Db) :
  wp apiWorld C (fun _ db' => Queued db.toDb db'.toDb []) p.run db
  := by
  apply Every.wp_rel (G := fun s s' : Db => Queued s.toDb s'.toDb []) _ _ _ h db
  · intro s
    exact .refl _
  · intro s s' s'' hs hs'
    exact hs.trans hs'
  · intro q hq c s _
    exact hq c s

theorem every_ofExcept {P : ApiRequest → Prop} (r : Except NoombatError α) :
  Every P (ofExcept r).run
  := by
  cases r with
  | error e => apply every_run_throw
  | ok a => apply every_run_pure

theorem every_ignoringErrors {P : ApiRequest → Prop} {p : Route α} (h : Every P p.run) :
  Every P (ignoringErrors p).run
  := by
  apply every_run_bind (every_run_attempt h)
  intro _
  apply every_run_pure

/-- A loop whose failures are logged is left with what each turn did. -/
theorem wp_ignoringErrors (Post : Except NoombatError Unit → Db → Prop) (p : Route α) (db : Db) :
  wp apiWorld C Post (ignoringErrors p).run db ↔
    wp apiWorld C (fun _ db' => Post (.ok ()) db') p.run db
  := by
  rw [ignoringErrors, wp_run_bind, wp_run_attempt]
  simp only [onExcept_ok, wp_run_pure]

end Frames

/-! ### What publishing does -/

section Publishing

variable {C : Condition apiWorld} {db : Db}

theorem followerInboxes_eq {db db' : Db} {new : List Delivery}
    (h : Queued db.toDb db'.toDb new) (actorId : Uuid) :
  db'.followerInboxes actorId = db.followerInboxes actorId
  := by
  rw [Db.followerInboxes, Db.followerInboxes, h.follows, h.actors]

theorem authorOf_eq {db db' : Db} {new : List Delivery} (h : Queued db.toDb db'.toDb new)
    (apId : String) :
  db'.authorOf apId = db.authorOf apId
  := by
  rw [Db.authorOf, Db.authorOf, h.posts, h.actors]

/-- A delivery that is queued is the last of the queue. -/
theorem wp_enqueue (actorId : Uuid) (payload : Json) (inbox : String) :
  wp apiWorld C
    (onExcept (fun _ db' => Queued db.toDb db'.toDb [⟨actorId, payload, inbox⟩])
      (fun _ db' => Queued db.toDb db'.toDb []))
    (fed (Federation.Repo.enqueueDelivery actorId payload inbox)).run db
  := by
  have henqueue : wp fedWorld (Always fedWorld)
      (onExcept (fun _ fdb => Queued db.toDb fdb [⟨actorId, payload, inbox⟩])
        (fun _ fdb => Queued db.toDb fdb []))
      (Federation.Repo.enqueueDelivery actorId payload inbox).run db.toDb := by
    apply Federation.wp_sql (.enqueueDelivery ⟨actorId, payload, inbox⟩)
    · intro e
      exact .refl _
    · intro c _
      rw [Federation.Sql.exec, Federation.Db.enqueueDelivery]
      split
      · exact ⟨rfl, rfl, rfl, rfl, rfl⟩
      · exact .refl _
  apply wp_mono _ (wp_fed henqueue)
  rintro (e | _) db' h
  · exact h
  · exact h

/-- The activity is queued for each of the inboxes. -/
theorem wp_enqueueAll (actorId : Uuid) (payload : Json) (inboxes : List String) :
  wp apiWorld C
    (onExcept (fun _ db' => Queued db.toDb db'.toDb (inboxes.map (Delivery.mk actorId payload)))
      (fun _ db' => ∃ new, Queued db.toDb db'.toDb new))
    (forM inboxes fun inbox =>
      fed (Federation.Repo.enqueueDelivery actorId payload inbox) : Route PUnit).run db
  := by
  have hloop : wp apiWorld C
      (onExcept
        (fun _ db' => ∃ served, inboxes = served ++ [] ∧
          Queued db.toDb db'.toDb (served.map (Delivery.mk actorId payload)))
        (fun _ db' => ∃ new, Queued db.toDb db'.toDb new))
      (forM inboxes fun inbox =>
        fed (Federation.Repo.enqueueDelivery actorId payload inbox) : Route PUnit).run db := by
    apply wp_run_forM (fun (left : List String) (db' : Db) => ∃ served, inboxes = served ++ left ∧
      Queued db.toDb db'.toDb (served.map (Delivery.mk actorId payload)))
    · rintro inbox left db₁ ⟨served, hserved, hqueued⟩
      apply wp_mono _ (wp_enqueue actorId payload inbox)
      rintro (e | _) db₂ h
      · exact ⟨_, hqueued.trans h⟩
      · refine ⟨served ++ [inbox], ?_, ?_⟩
        · rw [hserved, List.append_assoc]
          rfl
        · rw [List.map_append]
          exact hqueued.trans h
    · exact ⟨[], rfl, .refl _⟩
  apply wp_mono _ hloop
  rintro (e | _) db' h
  · exact h
  · obtain ⟨served, hserved, hqueued⟩ := h
    rw [List.append_nil] at hserved
    rw [hserved]
    exact hqueued

/-- What is announced goes to relays. -/
def ToRelays (db : Federation.Db) (new : List Delivery) : Prop :=
  ∀ d ∈ new, ∃ r ∈ db.relaySubscriptions, r.inboxUrl = d.targetInbox

theorem wp_broadcastToRelays (instanceActorId : Uuid) (instanceApId : String) (activity : Json) :
  wp apiWorld C
    (fun _ db' => ∃ new, Queued db.toDb db'.toDb new ∧ ToRelays db.toDb new)
    (broadcastToRelays instanceActorId instanceApId activity).run db
  := by
  have hnone : ∀ db' : Db, Queued db.toDb db'.toDb [] →
      ∃ new, Queued db.toDb db'.toDb new ∧ ToRelays db.toDb new :=
    fun _ h => ⟨[], h, fun d hd => by cases hd⟩
  rw [broadcastToRelays, wp_run_bind, run_unwrapOr, wp_bind]
  apply wp_sql .acceptedRelays
  · intro e
    simp only [wp_done, Except.toOption, Option.getD_none, onExcept_ok, List.isEmpty_nil, if_true,
      wp_run_pure]
    exact hnone db (.refl _)
  simp only [ApiSql.exec, wp_done, Except.toOption, Option.getD_some, onExcept_ok]
  -- the inboxes are those of relays
  have hrelays : ∀ inbox ∈ (db.relaySubscriptions.rows.filter (·.status == .accepted)).map
      (·.inboxUrl), ∃ r ∈ db.relaySubscriptions, r.inboxUrl = inbox := by
    intro inbox hinbox
    obtain ⟨r, hr, rfl⟩ := List.mem_map.mp hinbox
    exact ⟨r, List.mem_of_mem_filter hr, rfl⟩
  generalize (db.relaySubscriptions.rows.filter (·.status == .accepted)).map (·.inboxUrl) = inboxes
    at hrelays
  split
  · rw [wp_run_pure]
    exact hnone db (.refl _)
  rw [wp_run_bind]
  apply wp_mono _ (wp_idle every_clock db)
  rintro (e | now) db₁ h₁
  · exact hnone db₁ h₁
  rw [onExcept_ok]
  generalize relayAnnounce _ instanceApId _ = announce
  have hloop : wp apiWorld C
      (onExcept
        (fun _ db' => (∀ inbox ∈ ([] : List String), ∃ r ∈ db.relaySubscriptions,
          r.inboxUrl = inbox) ∧ ∃ new, Queued db.toDb db'.toDb new ∧ ToRelays db.toDb new)
        (fun _ db' => ∃ new, Queued db.toDb db'.toDb new ∧ ToRelays db.toDb new))
      (forM inboxes fun inbox =>
        ignoringErrors (fed (Federation.Repo.enqueueDelivery instanceActorId announce inbox)) :
          Route PUnit).run db₁ := by
    apply wp_run_forM (fun (left : List String) (db' : Db) =>
      (∀ inbox ∈ left, ∃ r ∈ db.relaySubscriptions, r.inboxUrl = inbox) ∧
        ∃ new, Queued db.toDb db'.toDb new ∧ ToRelays db.toDb new)
    · rintro inbox left db₂ ⟨hleft, new, hqueued, hnew⟩
      have hrest := fun i hi => hleft i (List.mem_cons_of_mem inbox hi)
      rw [wp_ignoringErrors]
      apply wp_mono _ (wp_enqueue instanceActorId announce inbox)
      rintro (e | _) db₃ h
      · exact ⟨hrest, new ++ [], hqueued.trans h, by simpa using hnew⟩
      · refine ⟨hrest, _, hqueued.trans h, ?_⟩
        intro d hd
        obtain hd | hd := List.mem_append.mp hd
        · exact hnew d hd
        · obtain rfl := List.mem_singleton.mp hd
          exact hleft inbox (List.mem_cons_self ..)
    · exact ⟨hrelays, hnone db₁ h₁⟩
  apply wp_mono _ hloop
  rintro (e | _) db' h
  · exact h
  · exact h.2

theorem wp_announceToRelays (activity : Json) :
  wp apiWorld C
    (fun _ db' => ∃ new, Queued db.toDb db'.toDb new ∧ ToRelays db.toDb new)
    (announceToRelays activity).run db
  := by
  have hnone : ∀ db' : Db, Queued db.toDb db'.toDb [] →
      ∃ new, Queued db.toDb db'.toDb new ∧ ToRelays db.toDb new :=
    fun _ h => ⟨[], h, fun d hd => by cases hd⟩
  have hread : ∀ q : FedRequest, q.consults = true → (ApiRequest.fed q).Idle :=
    fun q hq => idle_consults hq
  rw [announceToRelays, wp_run_bind, wp_run_attempt]
  apply wp_mono _ (wp_idle (every_fed (Federation.every_findLocalSigningActor hread)) db)
  rintro (e | signer) db₁ h₁
  · rw [onExcept_ok, wp_run_pure]
    exact hnone db₁ h₁
  rw [onExcept_ok, wp_run_bind, wp_run_attempt]
  apply wp_mono _ (wp_idle (every_fed (Federation.every_findById hread signer)) db₁)
  rintro (e | instanceActor) db₂ h₂
  · rw [onExcept_ok, wp_run_pure]
    exact hnone db₂ (h₁.trans h₂)
  rw [onExcept_ok]
  have h := h₁.trans h₂
  apply wp_mono _ (wp_broadcastToRelays signer instanceActor.apId activity)
  rintro _ db₃ ⟨new, hqueued, hnew⟩
  use new, h.trans hqueued
  intro d hd
  rw [← h.relays]
  exact hnew d hd

/-- What is queued of a reply goes to the author of the post that it answers. -/
theorem wp_deliverReply (actorId : Uuid) (activity : Json) (served : List String)
    (replyTarget : Option String) :
  wp apiWorld C
    (fun _ db' => ∃ new, Queued db.toDb db'.toDb new ∧ ∀ d ∈ new, replyTarget = some d.targetInbox)
    (deliverReply actorId activity served replyTarget).run db
  := by
  have hnone : ∀ db' : Db, Queued db.toDb db'.toDb [] →
      ∃ new, Queued db.toDb db'.toDb new ∧ ∀ d ∈ new, replyTarget = some d.targetInbox :=
    fun _ h => ⟨[], h, fun d hd => by cases hd⟩
  rw [deliverReply.eq_def]
  split
  · rw [wp_run_pure]
    exact hnone db (.refl _)
  · split
    · rw [wp_run_pure]
      exact hnone db (.refl _)
    · rename_i target _
      rw [wp_ignoringErrors]
      apply wp_mono _ (wp_enqueue actorId activity target)
      rintro (e | _) db' h
      · exact hnone db' h
      · refine ⟨_, h, ?_⟩
        intro d hd
        obtain rfl := List.mem_singleton.mp hd
        rfl

/-- A post is queued for the followers, for the author of the post it answers, for relays if
it is public, and for nobody else; and if this is done, for all the followers. -/
theorem wp_deliverPost (actorId : Uuid) (visibility : Visibility) (replyTarget : Option String)
    (activity : Json) :
  wp apiWorld C
    (onExcept
      (fun _ db' => ∃ new, Queued db.toDb db'.toDb new ∧
        (∀ inbox ∈ db.followerInboxes actorId, ∃ d ∈ new, d.targetInbox = inbox) ∧
        ∀ d ∈ new, d.targetInbox ∈ db.followerInboxes actorId ∨
          replyTarget = some d.targetInbox ∨
          visibility = .public ∧ ∃ r ∈ db.relaySubscriptions, r.inboxUrl = d.targetInbox)
      (fun _ _ => True))
    (deliverPost actorId visibility replyTarget activity).run db
  := by
  rw [deliverPost, wp_run_bind]
  apply wp_sql (.followerInboxes actorId)
  · intro e
    trivial
  rw [ApiSql.exec, onExcept_ok, wp_run_bind]
  generalize db.followerInboxes actorId = inboxes
  apply wp_mono _ (wp_enqueueAll actorId activity inboxes)
  rintro (e | _) db₁ h₁
  · trivial
  rw [onExcept_ok] at h₁ ⊢
  rw [wp_run_bind]
  apply wp_mono _ (wp_deliverReply actorId activity inboxes replyTarget)
  rintro (e | _) db₂ ⟨replies, h₂, hreplies⟩
  · trivial
  rw [onExcept_ok]
  have h := h₁.trans h₂
  -- what has been queued so far is as it should be, whatever relays are sent
  have hdone : ∀ (db₃ : Db) (sent : List Delivery), Queued db₂.toDb db₃.toDb sent →
      (∀ d ∈ sent, visibility = .public ∧ ∃ r ∈ db.relaySubscriptions, r.inboxUrl = d.targetInbox) →
      ∃ new, Queued db.toDb db₃.toDb new ∧
        (∀ inbox ∈ inboxes, ∃ d ∈ new, d.targetInbox = inbox) ∧
        ∀ d ∈ new, d.targetInbox ∈ inboxes ∨ replyTarget = some d.targetInbox ∨
          visibility = .public ∧ ∃ r ∈ db.relaySubscriptions, r.inboxUrl = d.targetInbox := by
    intro db₃ sent h₃ hsent
    refine ⟨_, h.trans h₃, ?_, ?_⟩
    · intro inbox hinbox
      refine ⟨Delivery.mk actorId activity inbox, ?_, rfl⟩
      rw [List.append_assoc]
      exact List.mem_append_left _ (List.mem_map_of_mem hinbox)
    · intro d hd
      obtain hd | hd := List.mem_append.mp hd
      · obtain hd | hd := List.mem_append.mp hd
        · obtain ⟨inbox, hinbox, rfl⟩ := List.mem_map.mp hd
          exact .inl hinbox
        · exact .inr (.inl (hreplies d hd))
      · exact .inr (.inr (hsent d hd))
  split_ifs with hpublic
  · apply wp_mono _ (wp_announceToRelays activity)
    rintro (e | _) db₃ ⟨sent, h₃, hsent⟩
    · trivial
    · apply hdone db₃ sent h₃
      intro d hd
      rw [← h.relays]
      exact ⟨hpublic, hsent d hd⟩
  · rw [wp_run_pure]
    apply hdone db₂ [] (.refl _)
    intro d hd
    cases hd

/-- The post is there, and nothing else that decides on its audience has changed. -/
structure Stored (db db' : Federation.Db) (post : Post) : Prop where
  actors : db'.actors = db.actors
  posts : ∀ p, p ∈ db'.posts ↔ p = post ∨ p ∈ db.posts
  follows : db'.follows = db.follows
  relays : db'.relaySubscriptions = db.relaySubscriptions
  queue : db'.deliveryQueue = db.deliveryQueue

theorem wp_createLocalPost (post : NewPost) :
  wp apiWorld C
    (onExcept (fun _ db' => Stored db.toDb db'.toDb { post.toPost with id := db.nextId })
      (fun _ _ => True))
    (fed (Federation.Repo.createLocalPost post)).run db
  := by
  have hcreate : wp fedWorld (Always fedWorld)
      (onExcept (fun _ fdb => Stored db.toDb fdb { post.toPost with id := db.nextId })
        (fun _ _ => True))
      (Federation.Repo.createLocalPost post).run db.toDb := by
    apply Federation.wp_sql (.insertLocalPost post)
    · intro e
      trivial
    · intro c _
      rw [Federation.Sql.exec, Federation.Db.insertLocalPost]
      split
      · rename_i core hcore
        obtain ⟨hactors, _, hposts⟩ := Federation.Core.of_insertPost hcore
        exact ⟨hactors, hposts, rfl, rfl, rfl⟩
      · trivial
  apply wp_mono _ (wp_fed hcreate)
  rintro (e | _) db' h
  · trivial
  · exact h

theorem every_claimAttachments (actorId postId : Uuid) (ids : List Uuid) :
  Every ApiRequest.Idle (claimAttachments actorId postId ids).run
  := by
  rw [claimAttachments]
  split
  · apply every_run_pure
  · apply every_ignoringErrors ((every_run_ask _).mpr (idle_sql _))

theorem every_linkHashtags (ext : PublishingExternal) (postId : Uuid) (hashtags : List String) :
  Every ApiRequest.Idle (linkHashtags ext postId hashtags).run
  := by
  rw [linkHashtags]
  split
  · apply every_run_pure
  · apply every_ignoringErrors
    apply every_fed
    rw [Federation.linkPostHashtags.eq_def]
    split
    · apply every_run_pure
    · apply every_run_bind (Federation.every_sql (idle_upsertHashtags _))
      intro ids
      apply Federation.every_sql (idle_linkHashtags _ _)

theorem wp_storePost (ext : PublishingExternal) (post : NewPost) (attachmentIds : List Uuid)
    (hashtags : List String) :
  wp apiWorld C
    (onExcept (fun _ db' => Stored db.toDb db'.toDb { post.toPost with id := db.nextId })
      (fun _ _ => True))
    (storePost ext post attachmentIds hashtags).run db
  := by
  rw [storePost, wp_run_bind]
  apply wp_mono _ (wp_createLocalPost post)
  rintro (e | created) db₁ h₁
  · trivial
  rw [onExcept_ok] at h₁ ⊢
  have hrest : Every ApiRequest.Idle (do
      claimAttachments post.actorId created attachmentIds
      linkHashtags ext created hashtags
      return created : Route Uuid).run := by
    apply every_run_bind (every_claimAttachments _ _ _)
    intro _
    apply every_run_bind (every_linkHashtags ext _ _)
    intro _
    apply every_run_pure
  apply wp_mono _ (wp_idle hrest db₁)
  rintro (e | _) db₂ h₂
  · trivial
  · constructor
    · rw [h₂.actors, h₁.actors]
    · intro p
      rw [h₂.posts]
      exact h₁.posts p
    · rw [h₂.follows, h₁.follows]
    · rw [h₂.relays, h₁.relays]
    · rw [h₂.queue, h₁.queue, List.append_nil]

/-- The author of the post that is answered, as its row has it. -/
def parentAuthorIn (db : Db) (inReplyTo : Option String) : Option (String × Option String) :=
  inReplyTo.bind fun uri => (db.authorOf uri).map fun a => (a.apId, a.inboxUrl)

/-- The lookup of the author of the post that is answered does not fail, if it is to. -/
def LookupSucceeds (sure : Prop) : Condition apiWorld :=
  fun q c _ =>
    match q, c with
    | .sql (.parentAuthor _), (c : Option NoombatError) => sure → c = none
    | _, _ => True

theorem wp_parentAuthorOf {sure : Prop} (inReplyTo : Option String) :
  wp apiWorld (LookupSucceeds sure)
    (onExcept
      (fun found db' => db' = db ∧ (found = none ∨ found = parentAuthorIn db inReplyTo) ∧
        (sure → found = parentAuthorIn db inReplyTo))
      (fun _ _ => True))
    (parentAuthorOf inReplyTo).run db
  := by
  cases inReplyTo with
  | none =>
      rw [parentAuthorOf, wp_run_pure]
      exact ⟨rfl, .inl rfl, fun _ => rfl⟩
  | some uri =>
      rw [parentAuthorOf, run_unwrapOr, wp_bind]
      apply (wp_request (ApiRequest.sql (.parentAuthor uri)) _).mpr
      rintro (_ | e) hc
      · rw [wp_done]
        exact ⟨rfl, .inr rfl, fun _ => rfl⟩
      · rw [wp_done]
        refine ⟨rfl, .inl rfl, fun hsure => ?_⟩
        cases hc hsure

theorem every_postVisibility {P : ApiRequest → Prop} {actorId : Uuid}
    (hdefault : P (.sql (.defaultPostVisibility actorId))) (stated : Option String) :
  Every P (postVisibility actorId stated).run
  := by
  have hname : Every P (tierName actorId stated).run := by
    cases stated with
    | some stated => apply every_run_pure
    | none =>
        apply every_run_bind ((every_run_ask _).mpr hdefault)
        intro default
        apply every_okOr
  apply every_run_bind hname
  intro tier
  apply every_okOr

theorem every_attachmentObjects {P : ApiRequest → Prop} {actorId : Uuid} {ids : List Uuid}
    (hattachments : P (.sql (.unclaimedAttachments actorId ids))) :
  Every P (attachmentObjects actorId ids).run
  := by
  rw [attachmentObjects]
  split
  · apply every_run_pure
  · apply every_run_bind ((every_run_ask _).mpr hattachments)
    intro rows
    apply every_run_pure

/-- What a post is, and for whom it has been queued, when it is published.  The author of the
post that it answers may not have been found. -/
structure Published (ext : PublishingExternal) (username : String) (db : Db)
    (db' : Federation.Db) (activity : Json) (author : Actor) (post : Post)
    (found : Option (String × Option String)) (new : List Delivery) : Prop where
  authored : db.actors.find (fun a => a.username == username && a.isLocal) = some author
  actorId : post.actorId = author.id
  apObject : post.apObject = activity
  document : ∃ (document : LocalPost) (signedAt : DateTime),
    activity = document.buildCreateActivity ext.toSigningExternal signedAt author.apId
      author.ed25519PrivateKey ∧
    document.to = (addressing author.apId post.visibility).1 ∧
    document.cc = withParentAuthor author.apId found (addressing author.apId post.visibility).2
  answered : found = none ∨ found = parentAuthorIn db post.inReplyTo
  actors : db'.actors = db.actors
  posts : ∀ p, p ∈ db'.posts ↔ p = post ∨ p ∈ db.posts
  queue : db'.deliveryQueue = db.deliveryQueue ++ new
  followers : ∀ inbox ∈ db.followerInboxes author.id, ∃ d ∈ new, d.targetInbox = inbox
  others : ∀ d ∈ new, d.targetInbox ∈ db.followerInboxes author.id ∨
    found.bind Prod.snd = some d.targetInbox ∨
    post.visibility = .public ∧ ∃ r ∈ db.relaySubscriptions, r.inboxUrl = d.targetInbox

theorem wp_postOutbox {ext : PublishingExternal} {domain : String} {sure : Prop} (db : Db)
    (viewer : Option Viewer) (username : String) (body : OutboxPostBody) :
  wp apiWorld (LookupSucceeds sure)
    (onExcept
      (fun answer db' => ∃ author post found new,
        Published ext username db db'.toDb answer.2 author post found new ∧
          (sure → found = parentAuthorIn db post.inReplyTo))
      (fun _ _ => True))
    (postOutbox ext domain viewer username body).run db
  := by
  rw [postOutbox, wp_run_bind]
  apply wp_mono _ (wp_requireLocalActor viewer username)
  rintro (e | author) db₁ h₁
  · trivial
  obtain ⟨hdb₁, hauthor⟩ := h₁
  have hqueued₁ : Queued db.toDb db₁.toDb [] := by
    rw [hdb₁]
    exact .refl _
  rw [onExcept_ok, wp_run_bind]
  apply wp_mono _ (wp_idle (every_postVisibility (idle_sql _) body.visibility) db₁)
  rintro (e | visibility) db₂ h₂
  · trivial
  rw [onExcept_ok, wp_run_bind]
  apply wp_mono _ (wp_idle (every_ofExcept (postTypeOf body)) db₂)
  rintro (e | postType) db₃ h₃
  · trivial
  rw [onExcept_ok, wp_run_bind]
  apply wp_mono _ (wp_idle ((every_run_ask _).mpr idle_newUuid) db₃)
  rintro (e | uuid) db₄ h₄
  · trivial
  rw [onExcept_ok, wp_run_bind]
  apply wp_mono _ (wp_idle (every_ofExcept (ext.render body.content (postType == .article))) db₄)
  rintro (e | rendered) db₅ h₅
  · trivial
  have hqueued₅ := (((hqueued₁.trans h₂).trans h₃).trans h₄).trans h₅
  rw [onExcept_ok, wp_run_bind]
  apply wp_mono _ (wp_parentAuthorOf body.inReplyTo)
  rintro (e | found) db₆ h₆
  · trivial
  obtain ⟨rfl, hfound, hsure⟩ := h₆
  rw [onExcept_ok, wp_run_bind]
  apply wp_mono _ (wp_idle (every_attachmentObjects (idle_sql _)) db₆)
  rintro (e | attachments) db₇ h₇
  · trivial
  rw [onExcept_ok, wp_run_bind]
  apply wp_mono _ (wp_idle every_clock db₇)
  rintro (e | published) db₈ h₈
  · trivial
  rw [onExcept_ok, wp_run_bind]
  apply wp_mono _ (wp_idle every_clock db₈)
  rintro (e | signedAt) db₉ h₉
  · trivial
  have hqueued₉ := ((hqueued₅.trans h₇).trans h₈).trans h₉
  rw [onExcept_ok, wp_run_bind]
  generalize hdocument : localPost ext domain author body visibility postType _ rendered found
    attachments published = document
  generalize hactivity : document.buildCreateActivity ext.toSigningExternal signedAt author.apId
    author.ed25519PrivateKey = activity
  generalize hpost : document.toNewPost author.id visibility postType activity = post
  apply wp_mono _ (wp_storePost ext post body.attachmentIds rendered.2)
  rintro (e | created) db₁₀ hstored
  · trivial
  rw [onExcept_ok] at hstored ⊢
  rw [wp_run_bind]
  apply wp_mono _ (wp_deliverPost author.id visibility (found.bind Prod.snd) activity)
  rintro (e | _) db₁₁ hdelivered
  · trivial
  obtain ⟨new, hqueued, hfollowers, hothers⟩ := hdelivered
  rw [onExcept_ok, wp_run_pure]
  -- what decides on the audience was the same when the post was delivered
  have hinboxes : db₁₀.followerInboxes author.id = db.followerInboxes author.id := by
    rw [Db.followerInboxes, Db.followerInboxes, hstored.follows, hstored.actors, hqueued₉.follows,
      hqueued₉.actors]
  have hrelays : db₁₀.relaySubscriptions = db.relaySubscriptions := by
    rw [hstored.relays, hqueued₉.relays]
  have hparent : parentAuthorIn db₆ body.inReplyTo = parentAuthorIn db body.inReplyTo := by
    cases hreply : body.inReplyTo with
    | none => rfl
    | some uri =>
        rw [parentAuthorIn, parentAuthorIn, Option.bind_some, Option.bind_some,
          authorOf_eq hqueued₅]
  rw [hinboxes] at hfollowers hothers
  rw [hrelays] at hothers
  rw [hparent] at hfound hsure
  have hreply : post.inReplyTo = body.inReplyTo := by
    rw [← hpost, ← hdocument]
    rfl
  rw [← hreply] at hfound hsure
  refine ⟨author, { post.toPost with id := db₉.nextId }, found, new, ?_, hsure⟩
  constructor
  · exact hauthor
  · rw [← hpost]
    rfl
  · rw [← hpost]
    rfl
  · refine ⟨document, signedAt, hactivity.symm, ?_, ?_⟩
    · rw [← hpost, ← hdocument]
      rfl
    · rw [← hpost, ← hdocument]
      rfl
  · exact hfound
  · rw [hqueued.actors, hstored.actors, hqueued₉.actors]
  · intro p
    rw [hqueued.posts, ← hqueued₉.posts]
    exact hstored.posts p
  · rw [hqueued.queue, hstored.queue, hqueued₉.queue]
    simp
  · exact hfollowers
  · intro d hd
    rw [← hpost]
    exact hothers d hd

end Publishing

/-! ### The addresses of the document -/

/-- A document is addressed to a URI. -/
def IsAddressedTo (document : Json) (uri : String) : Prop :=
  ∃ key uris, (key = "to" ∨ key = "cc") ∧ document.get key = some (.arr uris) ∧ .str uri ∈ uris

section Addresses

variable {j : Json} {uri actorApId : String} {document : LocalPost} {ext : SigningExternal}
  {signedAt : DateTime} {key : Option String}

theorem isAddressedTo_iff {recipients copied : List String}
    (hto : j.get "to" = some (LocalPost.strings recipients))
    (hcc : j.get "cc" = some (LocalPost.strings copied)) :
  IsAddressedTo j uri ↔ uri ∈ recipients ∨ uri ∈ copied
  := by
  have hmem : ∀ l : List String, Json.str uri ∈ l.map Json.str ↔ uri ∈ l := by
    intro l
    simp
  constructor
  · rintro ⟨name, uris, rfl | rfl, hget, huri⟩
    · rw [hto, LocalPost.strings] at hget
      cases hget
      exact .inl ((hmem _).mp huri)
    · rw [hcc, LocalPost.strings] at hget
      cases hget
      exact .inr ((hmem _).mp huri)
  · rintro (huri | huri)
    · exact ⟨"to", _, .inl rfl, hto, (hmem _).mpr huri⟩
    · exact ⟨"cc", _, .inr rfl, hcc, (hmem _).mpr huri⟩

/-- The document, signed or not, is addressed as it is built. -/
theorem get_signedDocument {name : String} (hproof : name ≠ "proof")
    (hcontext : name ≠ "@context") :
  (document.signedDocument ext signedAt actorApId key).get name =
    (document.document actorApId).get name
  := by
  cases key with
  | none => rfl
  | some key =>
      rw [LocalPost.signedDocument]
      cases hsigned : signAsActor ext signedAt (document.document actorApId) key actorApId with
      | none => rfl
      | some result =>
          obtain ⟨made, signed⟩ := result
          exact Federation.get_signAsActor rfl hsigned hcontext (absurd · hproof)

theorem isAddressedTo_activity :
  IsAddressedTo (document.buildCreateActivity ext signedAt actorApId key) uri ↔
    uri ∈ document.to ∨ uri ∈ document.cc
  := isAddressedTo_iff rfl rfl

theorem isAddressedTo_object :
  IsAddressedTo (document.signedDocument ext signedAt actorApId key) uri ↔
    uri ∈ document.to ∨ uri ∈ document.cc
  := by
  apply isAddressedTo_iff
  · rw [get_signedDocument (by decide) (by decide)]
    rfl
  · rw [get_signedDocument (by decide) (by decide)]
    rfl

/-- No collection of an actor is the public. -/
theorem collection_ne_asPublic {c : String}
    (h : ¬ c.toList <:+ asPublic.toList) :
  actorApId ++ c ≠ asPublic
  := by
  intro heq
  apply h
  rw [← heq, String.toList_append]
  exact List.suffix_append _ _

/-- The addresses of a tier name the public just when anyone may read it. -/
theorem asPublic_addressing (visibility : Visibility) (authorId : Uuid) :
  asPublic ∈ (addressing actorApId visibility).1 ∨ asPublic ∈ (addressing actorApId visibility).2 ↔
    postVisibleTo visibility none authorId .NONE = true
  := by
  have hfollowers : asPublic ≠ s!"{actorApId}/followers" :=
    (collection_ne_asPublic (c := "/followers") (by decide)).symm
  have hconnections : asPublic ≠ s!"{actorApId}/connections" :=
    (collection_ne_asPublic (c := "/connections") (by decide)).symm
  cases visibility with
  | «public» => simp [addressing, postVisibleTo]
  | unlisted => simp [addressing, postVisibleTo]
  | followers => simp [addressing, postVisibleTo, hfollowers, Relationship.isFollower, Relationship.NONE]
  | connections =>
      simp [addressing, postVisibleTo, hconnections, Relationship.isConnection, Relationship.NONE]

/-- What is added to `cc` is the author of the post that is answered, unless it is one's own. -/
theorem mem_withParentAuthor {found : Option (String × Option String)} {cc : List String} :
  uri ∈ withParentAuthor actorApId found cc ↔
    uri ∈ cc ∨ ∃ parent, found = some parent ∧ parent.1 = uri ∧ uri ≠ actorApId
  := by
  rw [withParentAuthor.eq_def]
  cases found with
  | none => simp
  | some parent =>
      obtain ⟨authorApId, inbox⟩ := parent
      dsimp only
      split
      · rename_i hadded
        simp only [Bool.and_eq_true, decide_eq_true_eq] at hadded
        rw [List.mem_append, List.mem_singleton]
        constructor
        · rintro (huri | rfl)
          · exact .inl huri
          · exact .inr ⟨_, rfl, rfl, hadded.1⟩
        · rintro (huri | ⟨_, hparent, hname, _⟩)
          · exact .inl huri
          · cases hparent
            exact .inr hname.symm
      · rename_i hkept
        simp only [Bool.and_eq_true, decide_eq_true_eq, not_and, Bool.not_eq_true,
          Bool.not_eq_false', List.contains_iff_mem] at hkept
        constructor
        · exact .inl
        · rintro (huri | ⟨_, hparent, hname, hother⟩)
          · exact huri
          · cases hparent
            obtain rfl := hname
            simpa using hkept hother

end Addresses

/-! ### Deliveries to readers -/

/-- A post is disclosed no further than its tier has it: what is queued of it goes to those who
may read it, and it is addressed to the public if anyone may. -/
structure WithinAudience (db : Db) (activity : Json) (post : Post) (new : List Delivery) :
    Prop where
  deliveries : ∀ d ∈ new, db.MayReceive post d.targetInbox
  addresses : IsAddressedTo activity asPublic ↔
    postVisibleTo post.visibility none post.actorId .NONE = true
  objectAddresses : ∀ object, activity.get "object" = some object →
    (IsAddressedTo object asPublic ↔ postVisibleTo post.visibility none post.actorId .NONE = true)

/-- A post for the connections has no followers but at inboxes of connections or of the author
of the post that it answers; and no post for fewer than anyone answers one by an actor who
bears the name of the public. -/
structure Enclosed (db : Db) (author : Actor) (post : Post) : Prop where
  connected : post.visibility = .connections → ∀ inbox ∈ db.followerInboxes author.id,
    (∃ a ∈ db.actors, TakesDeliveries a inbox ∧
      (a.id = author.id ∨ (db.graph.relationship a.id author.id).isConnection = true)) ∨
    ∃ uri a, post.inReplyTo = some uri ∧ db.authorOf uri = some a ∧ TakesDeliveries a inbox
  named : post.visibility = .followers ∨ post.visibility = .connections → ∀ uri a,
    post.inReplyTo = some uri → db.authorOf uri = some a → a.apId = asPublic →
      author.apId = asPublic

section Readers

variable {db : Db} {author : Actor} {post : Post}

/-- Where an accepted follower takes deliveries. -/
theorem mem_followerInboxes {actorId : Uuid} {inbox : String} :
  inbox ∈ db.followerInboxes actorId ↔
    ∃ f ∈ db.follows, f.followingId = actorId ∧ f.accepted = true ∧
      ∃ a, db.actors.find (·.id == f.followerId) = some a ∧ a.deliveryInbox = inbox
  := by
  rw [Db.followerInboxes, List.mem_dedup, List.mem_filterMap]
  constructor
  · rintro ⟨f, hf, h⟩
    split at h
    · rename_i hfollow
      simp only [Bool.and_eq_true, beq_iff_eq] at hfollow
      obtain ⟨a, ha, hinbox⟩ := Option.map_eq_some_iff.mp h
      exact ⟨f, hf, hfollow.1, hfollow.2, a, ha, hinbox⟩
    · cases h
  · rintro ⟨f, hf, rfl, haccepted, a, ha, rfl⟩
    exact ⟨f, hf, by simp [haccepted, ha]⟩

/-- An accepted follower is one. -/
theorem isFollower_of_follow (hfollows : db.follows.Pairwise Federation.Follow.Apart)
    {f : Federation.Follow} (hf : f ∈ db.follows) (haccepted : f.accepted = true)
    (hother : f.followerId ≠ f.followingId) :
  (db.graph.relationship f.followerId f.followingId).isFollower = true
  := by
  have hfound : db.follows.find? (fun f' => f'.followerId == f.followerId &&
      f'.followingId == f.followingId) = some f := by
    cases hfind : db.follows.find? (fun f' => f'.followerId == f.followerId &&
        f'.followingId == f.followingId) with
    | none =>
        have hnot := List.find?_eq_none.mp hfind f hf
        simp at hnot
    | some f' =>
        have hids := List.find?_some hfind
        simp only [Bool.and_eq_true, beq_iff_eq] at hids
        by_contra hne
        have hapart := hfollows.forall (List.mem_of_find?_eq_some hfind) hf
          (fun h => hne (congrArg some h))
        exact hapart.elim (· hids.1) (· hids.2)
  rw [Connections.Db.relationship, if_neg hother, Relationship.isFollower]
  have hgraph : db.graph.follows = db.follows := rfl
  simp [hgraph, hfound, haccepted]

/-- A follower may read what is not for the connections alone. -/
theorem mayReceive_follower (hfollows : db.follows.Pairwise Federation.Follow.Apart)
    (hauthor : post.actorId = author.id) (htier : post.visibility ≠ .connections) {inbox : String}
    (h : inbox ∈ db.followerInboxes author.id) :
  db.MayReceive post inbox
  := by
  obtain ⟨f, hf, hfollowing, haccepted, a, ha, rfl⟩ := mem_followerInboxes.mp h
  have hid : a.id = f.followerId := by
    simpa using Table.satisfies_of_find ha
  apply Db.MayReceive.reader (Table.mem_of_find ha) (takesDeliveries_deliveryInbox a)
  by_cases hself : a.id = post.actorId
  · rw [hself]
    apply postVisibleTo_author
  · have hfollower : (db.graph.relationship a.id post.actorId).isFollower = true := by
      rw [hauthor, hid, ← hfollowing] at hself ⊢
      exact isFollower_of_follow hfollows hf haccepted hself
    cases hvisibility : post.visibility with
    | «public» => simp [postVisibleTo]
    | unlisted => simp [postVisibleTo]
    | followers => rw [postVisibleTo_followers hself, hfollower]
    | connections => exact absurd hvisibility htier

/-- Who may receive a post for the connections is a connection, the author, or the author of
the post that is answered. -/
theorem mayReceive_connections (hauthor : post.actorId = author.id)
    (htier : post.visibility = .connections) {inbox : String} :
  db.MayReceive post inbox ↔
    (∃ a ∈ db.actors, TakesDeliveries a inbox ∧
      (a.id = author.id ∨ (db.graph.relationship a.id author.id).isConnection = true)) ∨
    ∃ uri a, post.inReplyTo = some uri ∧ db.authorOf uri = some a ∧ TakesDeliveries a inbox
  := by
  have hvisible : ∀ a : Actor, postVisibleTo post.visibility (some a.id) post.actorId
      (db.graph.relationship a.id post.actorId) = true ↔
      a.id = author.id ∨ (db.graph.relationship a.id author.id).isConnection = true := by
    intro a
    rw [htier, hauthor]
    by_cases hself : a.id = author.id
    · simp [hself, postVisibleTo_author]
    · simp [hself, postVisibleTo_connections]
  constructor
  · rintro (⟨ha, htakes, hreads⟩ | ⟨hreply, hparent, htakes⟩ | ⟨_, _, hanyone⟩)
    · exact .inl ⟨_, ha, htakes, (hvisible _).mp hreads⟩
    · exact .inr ⟨_, _, hreply, hparent, htakes⟩
    · rw [htier] at hanyone
      cases hanyone
  · rintro (⟨a, ha, htakes, hreads⟩ | ⟨uri, a, hreply, hparent, htakes⟩)
    · exact .reader ha htakes ((hvisible a).mpr hreads)
    · exact .answered hreply hparent htakes

section Published

variable {ext : PublishingExternal} {username : String} {db' : Federation.Db} {activity : Json}
  {found : Option (String × Option String)} {new : List Delivery}

/-- The activity and its object are addressed to the public if anyone may read the post, or if
the author of the post that is answered bears its name. -/
theorem Published.isAddressedTo (h : Published ext username db db' activity author post found new)
    {j : Json} (hj : j = activity ∨ activity.get "object" = some j) :
  IsAddressedTo j asPublic ↔ postVisibleTo post.visibility none post.actorId .NONE = true ∨
    ∃ parent, found = some parent ∧ parent.1 = asPublic ∧ asPublic ≠ author.apId
  := by
  obtain ⟨document, signedAt, rfl, hto, hcc⟩ := h.document
  have haddressed : IsAddressedTo j asPublic ↔ asPublic ∈ document.to ∨ asPublic ∈ document.cc := by
    obtain rfl | hobject := hj
    · exact isAddressedTo_activity
    · obtain rfl := Option.some.inj hobject
      exact isAddressedTo_object
  rw [haddressed, hto, hcc, mem_withParentAuthor, ← or_assoc,
    asPublic_addressing post.visibility post.actorId]

/-- A tier that is not for anyone is that of the followers or that of the connections. -/
theorem tier_of_not_visible
    (h : ¬ postVisibleTo post.visibility none post.actorId .NONE = true) :
  post.visibility = .followers ∨ post.visibility = .connections
  := by
  cases hvisibility : post.visibility with
  | «public» => simp [hvisibility, postVisibleTo] at h
  | unlisted => simp [hvisibility, postVisibleTo] at h
  | followers => exact .inl rfl
  | connections => exact .inr rfl

/-- What is published is within the audience of its tier if it is enclosed. -/
theorem Published.within (h : Published ext username db db' activity author post found new)
    (hfollows : db.follows.Pairwise Federation.Follow.Apart)
    (henclosed : Enclosed db author post) :
  WithinAudience db activity post new
  := by
  have hparent : ∀ parent, found = some parent → ∃ uri a, post.inReplyTo = some uri ∧
      db.authorOf uri = some a ∧ parent = (a.apId, a.inboxUrl) := by
    intro parent hsome
    obtain hnone | hfound := h.answered
    · rw [hnone] at hsome
      cases hsome
    · rw [hsome, parentAuthorIn] at hfound
      obtain ⟨uri, huri, hauthor⟩ := Option.bind_eq_some_iff.mp hfound.symm
      obtain ⟨a, ha, rfl⟩ := Option.map_eq_some_iff.mp hauthor
      exact ⟨uri, a, huri, ha, rfl⟩
  have haddressed : ∀ j, j = activity ∨ activity.get "object" = some j →
      (IsAddressedTo j asPublic ↔
        postVisibleTo post.visibility none post.actorId .NONE = true) := by
    intro j hj
    rw [h.isAddressedTo hj]
    constructor
    · rintro (hvisible | ⟨parent, hsome, hname, hother⟩)
      · exact hvisible
      · by_contra hnot
        obtain ⟨uri, a, huri, ha, rfl⟩ := hparent parent hsome
        exact hother (henclosed.named (tier_of_not_visible hnot) uri a huri ha hname).symm
    · exact .inl
  constructor
  · intro d hd
    obtain hfollower | hreply | ⟨hpublic, r, hr, hinbox⟩ := h.others d hd
    · by_cases htier : post.visibility = .connections
      · exact (mayReceive_connections h.actorId htier).mpr
          (henclosed.connected htier _ hfollower)
      · exact mayReceive_follower hfollows h.actorId htier hfollower
    · obtain ⟨parent, hsome, hinbox⟩ := Option.bind_eq_some_iff.mp hreply
      obtain ⟨uri, a, huri, ha, rfl⟩ := hparent parent hsome
      apply Db.MayReceive.answered huri ha
      right
      change a.inboxUrl = some d.targetInbox at hinbox
      rw [hinbox]
      rfl
    · apply Db.MayReceive.relay hr hinbox
      rw [hpublic]
      rfl
  · exact haddressed activity (.inl rfl)
  · intro object hobject
    exact haddressed object (.inr hobject)

/-- What is published is within the audience of its tier only if it is enclosed. -/
theorem Published.enclosed (h : Published ext username db db' activity author post found new)
    (hfound : found = parentAuthorIn db post.inReplyTo)
    (hwithin : WithinAudience db activity post new) :
  Enclosed db author post
  := by
  constructor
  · intro htier inbox hinbox
    obtain ⟨d, hd, rfl⟩ := h.followers inbox hinbox
    exact (mayReceive_connections h.actorId htier).mp (hwithin.deliveries d hd)
  · intro htier uri a huri ha hname
    by_contra hother
    have haddressed : IsAddressedTo activity asPublic := by
      apply (h.isAddressedTo (.inl rfl)).mpr
      right
      refine ⟨(a.apId, a.inboxUrl), ?_, hname, Ne.symm hother⟩
      rw [hfound, huri, parentAuthorIn, Option.bind_some, ha]
      rfl
    have hvisible := hwithin.addresses.mp haddressed
    obtain htier | htier := htier
    · rw [htier] at hvisible
      cases hvisible
    · rw [htier] at hvisible
      cases hvisible

end Published

end Readers

/-- No lookup of the author of a post that is answered fails. -/
def FindsParents (script : Script apiWorld) : Prop :=
  ∀ n uri, script n (.sql (.parentAuthor uri)) = (none : Option NoombatError)

/-- What a publication that is accepted has done. -/
theorem exists_published {ext : PublishingExternal} {domain : String} {db : Db}
    {script : Script apiWorld} {viewer : Option Viewer} {username : String}
    {body : OutboxPostBody} {answer : StatusCode × Json}
    (hdone : (run apiWorld script (postOutbox ext domain viewer username body).run db).1 =
      .ok answer) :
  ∃ author post found new,
    Published ext username db
      (run apiWorld script (postOutbox ext domain viewer username body).run db).2.toDb answer.2
      author post found new ∧
    (FindsParents script → found = parentAuthorIn db post.inReplyTo)
  := by
  have hsure : ∀ n q s, LookupSucceeds (FindsParents script) q (script n q) s := by
    intro n q s
    cases q with
    | sql s =>
        cases s with
        | parentAuthor uri => exact fun hfinds => hfinds n uri
        | _ => trivial
    | _ => trivial
  have hpublished := wp_run (wp_postOutbox db viewer username body)
    (alongFrom_of_script hsure 0 (postOutbox ext domain viewer username body).run db)
  rw [hdone] at hpublished
  exact hpublished

/-- A publication that is accepted adds one post to those of the author, and what it queues
to the queue.  The post is within the audience of its tier if it is enclosed; and only then,
unless the author of the post that it answers could not be looked up. -/
theorem postOutbox_audience (ext : PublishingExternal) (domain : String) {db : Db}
    (hfollows : db.follows.Pairwise Federation.Follow.Apart) (script : Script apiWorld)
    (viewer : Option Viewer) (username : String) (body : OutboxPostBody)
    {answer : StatusCode × Json}
    (hdone : (run apiWorld script (postOutbox ext domain viewer username body).run db).1 =
      .ok answer) :
    let ended := (run apiWorld script (postOutbox ext domain viewer username body).run db).2
  ∃ author post new,
    db.actors.find (fun a => a.username == username && a.isLocal) = some author ∧
    post.actorId = author.id ∧ post.apObject = answer.2 ∧
    (∀ p, p ∈ ended.posts ↔ p = post ∨ p ∈ db.posts) ∧
    ended.deliveryQueue = db.deliveryQueue ++ new ∧
    (Enclosed db author post → WithinAudience db answer.2 post new) ∧
    (FindsParents script → (WithinAudience db answer.2 post new ↔ Enclosed db author post))
  := by
  intro ended
  obtain ⟨author, post, found, new, h, hfound⟩ := exists_published hdone
  refine ⟨author, post, new, h.authored, h.actorId, h.apObject, h.posts, h.queue,
    h.within hfollows, fun hfinds => ⟨h.enclosed (hfound hfinds), h.within hfollows⟩⟩

/-! ### A post that reaches a follower -/

/-- Libraries that render a text as it is. -/
def PublishingExternal.plain : PublishingExternal :=
  { SigningExternal.plain with
    render markdown _ := .ok (markdown, [])
    toRfc3339 _ := "" }

/-- Rob follows Al, and they are not connected. -/
def followedByRob : Db :=
  .ofFederation { Federation.acquaintances with follows := [⟨1, 2, true, none⟩] }

def noteFor (tier : String) : OutboxPostBody where
  content := "x"
  visibility := some tier
  postType := "note"
  title := none
  featuredImageUrl := none
  featuredImageAlt := none
  inReplyTo := none
  attachmentIds := []
  sensitive := false

/-- Al publishes a note for a tier. -/
def alPublishes (tier : String) : Except NoombatError (StatusCode × Json) × Db :=
  run apiWorld undisturbed (postOutbox .plain "h.ex" (some ⟨2⟩) "al" (noteFor tier)).run
    followedByRob

/-- A note for the connections is queued for Rob, who may not read it. -/
theorem postOutbox_reaches_follower :
  followedByRob.follows.Pairwise Federation.Follow.Apart ∧ followedByRob.deliveryQueue = [] ∧
    (alPublishes "connections").1.toOption.isSome = true ∧
    ∃ post ∈ (alPublishes "connections").2.posts, post.visibility = .connections ∧
      ∃ d ∈ (alPublishes "connections").2.deliveryQueue,
        ¬ followedByRob.MayReceive post d.targetInbox
  := by
  have hpost : ∃ post ∈ (alPublishes "connections").2.posts.rows,
      post.visibility = .connections ∧ post.actorId = 2 ∧ post.inReplyTo = none := by
    decide +kernel
  have hsent : ∃ d ∈ (alPublishes "connections").2.deliveryQueue,
      d.targetInbox = "https://r.ex/u/inbox" := by
    decide +kernel
  have hreaders : ∀ a ∈ followedByRob.actors.rows, TakesDeliveries a "https://r.ex/u/inbox" →
      postVisibleTo .connections (some a.id) 2 (followedByRob.graph.relationship a.id 2) =
        false := by
    decide +kernel
  obtain ⟨post, hmem, htier, hauthor, hreply⟩ := hpost
  obtain ⟨d, hd, hinbox⟩ := hsent
  refine ⟨by decide +kernel, by decide +kernel, by decide +kernel, post, hmem, htier, d, hd, ?_⟩
  rw [hinbox]
  rintro (⟨ha, htakes, hreads⟩ | ⟨hanswers, _, _⟩ | ⟨_, _, hanyone⟩)
  · rw [htier, hauthor, hreaders _ ha htakes] at hreads
    cases hreads
  · rw [hreply] at hanswers
    cases hanswers
  · rw [htier] at hanyone
    cases hanyone

/-- A note for the followers is queued for Rob, who may read it. -/
theorem postOutbox_audience_al :
  ∃ answer post new, (alPublishes "followers").1 = .ok answer ∧ new.length = 1 ∧
    (alPublishes "followers").2.deliveryQueue = followedByRob.deliveryQueue ++ new ∧
    WithinAudience followedByRob answer.2 post new
  := by
  have hposts : ∀ p ∈ (alPublishes "followers").2.posts.rows, p.visibility = .followers ∧
      p.inReplyTo = none := by
    decide +kernel
  have hlength : (alPublishes "followers").2.deliveryQueue.length = 1 := by
    decide +kernel
  have hdone : (alPublishes "followers").1.toOption.isSome = true := by
    decide +kernel
  have hfollows : followedByRob.follows.Pairwise Federation.Follow.Apart := by
    decide +kernel
  cases hanswer : (alPublishes "followers").1 with
  | error e =>
      rw [hanswer] at hdone
      cases hdone
  | ok answer =>
      obtain ⟨author, post, new, _, _, _, hadded, hqueue, hwithin, _⟩ :=
        postOutbox_audience .plain "h.ex" hfollows undisturbed
          (some ⟨2⟩) "al" (noteFor "followers") hanswer
      obtain ⟨htier, hreply⟩ := hposts post ((hadded post).mpr (.inl rfl))
      refine ⟨answer, post, new, rfl, ?_, hqueue, hwithin ⟨?_, ?_⟩⟩
      · have hqueued := congrArg List.length hqueue
        rw [List.length_append] at hqueued
        exact (Nat.zero_add _).symm.trans (hqueued.symm.trans hlength)
      · intro hconnections
        rw [htier] at hconnections
        cases hconnections
      · intro _ uri a huri
        rw [hreply] at huri
        cases huri

end Api
