import Noombat.Api.Audience
import Noombat.Program.Exact

/-!
# Posts that are published wholly or not at all

A request to publish makes its statements one by one, with no transaction around them.  When it
ends in an error it should leave nothing behind, and when it succeeds the post should be queued
once for each of those that it is delivered to: the followers, the author of the post that it
answers, and the relays if it is public.  This is so just if no statement fails on which a delivery
depends, once the post is there.
-/

namespace Api

open Federation (Uuid DateTime NoombatError Actor Post Visibility Delivery NewPost FedRequest
  fedWorld)
open Fallible Program

/-! ### What is left and what is queued -/

/-- Nothing of a post is left, of its hashtags, its images, its document in the search index or
its deliveries. -/
structure Untouched (db db' : Db) : Prop where
  queued : Queued db.toDb db'.toDb []
  links : db'.postHashtags = db.postHashtags
  searches : db'.searchIndexOperations = db.searchIndexOperations
  claims : ∀ m ∈ db'.mediaAttachments, m ∈ db.mediaAttachments

theorem Untouched.refl (db : Db) :
  Untouched db db
  := ⟨.refl _, rfl, rfl, fun _ h => h⟩

theorem Untouched.trans {db db' db'' : Db} (h : Untouched db db') (h' : Untouched db' db'') :
  Untouched db db''
  := by
  constructor
  · exact h.queued.trans h'.queued
  · rw [h'.links, h.links]
  · rw [h'.searches, h.searches]
  · intro m hm
    exact h.claims m (h'.claims m hm)

/-- The inboxes of the relays that have accepted. -/
def Db.acceptedRelays (db : Db) : List String :=
  (db.relaySubscriptions.rows.filter (·.status == .accepted)).map (·.inboxUrl)

/-- The relays that a post of a tier is announced to. -/
def Db.relaysFor (db : Db) (visibility : Visibility) : List String :=
  if visibility = .public then db.acceptedRelays else []

/-- What is queued of a reply for the author of the post that it answers. -/
def replyDeliveries (actorId : Uuid) (activity : Json) (served : List String) :
    Option String → List Delivery
  | none => []
  | some target => if served.contains target then [] else [⟨actorId, activity, target⟩]

/-- The payload announces an activity. -/
def Announces (activity payload : Json) : Prop :=
  ∃ announceId instanceApId,
    payload = relayAnnounce announceId instanceApId ((activity.getStr "id").getD "unknown")

/-- An activity is announced once to each of some relays. -/
structure Announced (relays : List String) (activity : Json) (sent : List Delivery) : Prop where
  targets : sent.map (·.targetInbox) = relays
  payloads : ∀ d ∈ sent, Announces activity d.payload

/-- The post is there, and is queued once for each of those that it is delivered to. -/
structure Delivered (db db' : Db) (author : Actor) (post : Post) (activity : Json)
    (sent : List Delivery) : Prop where
  isNew : post ∉ db.posts
  posts : ∀ p, p ∈ db'.posts ↔ p = post ∨ p ∈ db.posts
  queue : db'.deliveryQueue = db.deliveryQueue ++
    ((db.followerInboxes author.id).map (Delivery.mk author.id activity) ++
      replyDeliveries author.id activity (db.followerInboxes author.id)
        ((parentAuthorIn db post.inReplyTo).bind Prod.snd) ++ sent)
  relays : Announced (db.relaysFor post.visibility) activity sent

/-- A request to publish is done wholly, or not at all. -/
def Whole (db : Db) (username : String) :
    Except NoombatError (StatusCode × Json) → Db → Prop :=
  onExcept
    (fun answer db' => ∃ author post sent,
      db.actors.find (fun a => a.username == username && a.isLocal) = some author ∧
        post.apObject = answer.2 ∧ Delivered db db' author post answer.2 sent)
    (fun _ db' => Untouched db db')

/-! ### Conditions on the statements -/

/-- There is a local actor with a private key. -/
def Db.HasSigner (db : Db) : Prop :=
  ∃ a ∈ db.actors, a.isLocal = true ∧ a.privateKeyPem.isSome = true

/-- A statement on which a delivery depends does not fail: the queries of the followers and the
insertions into the queue; and, if there are relays, the queries of the relays and of the actor
who signs, of whom there is one. -/
def Serves : Condition apiWorld :=
  fun q c db =>
    match q, c with
    | .sql (.followerInboxes _), (c : Option NoombatError) => c = none
    | .sql .acceptedRelays, (c : Option NoombatError) => c = none ∨ db.acceptedRelays = []
    | .fed (.sql (.enqueueDelivery _)), (c : Federation.SqlChoice) => c.error = none
    | .fed (.sql (.signingActor application)), (c : Federation.SqlChoice) =>
        db.acceptedRelays = [] ∨ c.error = none ∧ (application = true ∨ db.HasSigner)
    | .fed (.sql (.findById _)), (c : Federation.SqlChoice) =>
        db.acceptedRelays = [] ∨ c.error = none
    | _, _ => True

/-- The lookup of the author of the post that is answered does not fail. -/
def FindsParent : Condition apiWorld :=
  fun q c _ =>
    match q, c with
    | .sql (.parentAuthor _), (c : Option NoombatError) => c = none
    | _, _ => True

/-- The author of the post that a post answers has no inbox that is not served. -/
def Db.NeedsNoReply (db : Db) (post : NewPost) : Prop :=
  replyDeliveries post.actorId post.apObject (db.followerInboxes post.actorId)
    ((parentAuthorIn db post.inReplyTo).bind Prod.snd) = []

/-- The post is not inserted, or needs no reply. -/
def NeedsNoParent : Condition apiWorld :=
  fun q c db =>
    match q, c with
    | .fed (.sql (.insertLocalPost post)), (c : Federation.SqlChoice) =>
        c.error.isSome = true ∨ db.insertPost post.toPost = none ∨ db.NeedsNoReply post
    | _, _ => True

/-- The lookup of the author of the post that is answered, if it is made, does not fail or fails. -/
def Lookup (finds : Prop) : Condition apiWorld :=
  fun q c _ =>
    match q, c with
    | .sql (.parentAuthor _), (c : Option NoombatError) => c = none ↔ finds
    | _, _ => True

/-- No statement fails on which a delivery depends, and the author of the post that is answered
is found or not needed. -/
def Meets (finds : Prop) : Condition apiWorld :=
  fun q c db => Serves q c db ∧ (finds ∨ NeedsNoParent q c db)

/-! ### Steps before and beside the deliveries -/

/-- The request leaves nothing of a post, and no delivery depends on it. -/
structure ApiRequest.Aside (q : ApiRequest) : Prop where
  untouched : ∀ c db, Untouched db (apiWorld.exec q c db).2
  meets : ∀ finds c db, Meets finds q c db

/-- A request whose statement leaves the federation tables as they are leaves nothing. -/
theorem untouched_withFederation {db : Db} {federation : Federation.Db}
    (h : federation = db.toDb) :
  Untouched db (db.withFederation federation)
  := by
  constructor
  · rw [Db.withFederation_toDb, h]
    apply Queued.refl
  · rw [Db.withFederation_toDb, h]
  · rw [Db.withFederation_toDb, h]
  · intro m hm
    exact List.mem_of_mem_filter hm

theorem untouched_fed {q : FedRequest} (h : ∀ c fdb, (fedWorld.exec q c fdb).2 = fdb)
    (c : apiWorld.Choice (.fed q)) (db : Db) :
  Untouched db (apiWorld.exec (.fed q) c db).2
  := untouched_withFederation (h c db.toDb)

theorem untouched_sql {s : ApiSql} (h : ∀ db, (s.exec db).2 = db) (c : apiWorld.Choice (.sql s))
    (db : Db) :
  Untouched db (apiWorld.exec (.sql s) c db).2
  := by
  cases c with
  | some e => exact .refl db
  | none =>
      change Untouched db (s.exec db).2
      rw [h]
      exact .refl db

theorem aside_findLocalByUsername (username : String) :
  (ApiRequest.fed (.sql (.findLocalByUsername username))).Aside
  := by
  constructor
  · apply untouched_fed
    intro c fdb
    simp only [fedWorld]
    split
    · rfl
    · rfl
  · intro finds c db
    exact ⟨trivial, .inr trivial⟩

theorem aside_utcNow :
  (ApiRequest.fed .utcNow).Aside
  := ⟨untouched_fed fun _ _ => rfl, fun _ _ _ => ⟨trivial, .inr trivial⟩⟩

theorem aside_newUuid :
  ApiRequest.newUuid.Aside
  := ⟨fun _ db => .refl db, fun _ _ _ => ⟨trivial, .inr trivial⟩⟩

theorem aside_acceptedMember (organizationId memberId : Uuid) :
  (ApiRequest.sql (.acceptedMember organizationId memberId)).Aside
  := ⟨untouched_sql fun _ => rfl, fun _ _ _ => ⟨trivial, .inr trivial⟩⟩

theorem aside_parentAuthor (uri : String) :
  (ApiRequest.sql (.parentAuthor uri)).Aside
  := ⟨untouched_sql fun _ => rfl, fun _ _ _ => ⟨trivial, .inr trivial⟩⟩

theorem aside_defaultPostVisibility (actorId : Uuid) :
  (ApiRequest.sql (.defaultPostVisibility actorId)).Aside
  := ⟨untouched_sql fun _ => rfl, fun _ _ _ => ⟨trivial, .inr trivial⟩⟩

theorem aside_unclaimedAttachments (actorId : Uuid) (ids : List Uuid) :
  (ApiRequest.sql (.unclaimedAttachments actorId ids)).Aside
  := ⟨untouched_sql fun _ => rfl, fun _ _ _ => ⟨trivial, .inr trivial⟩⟩

section Aside

variable {A : Condition apiWorld} {finds : Prop} {α β : Type}

theorem wp_aside {p : Route α} (h : Every ApiRequest.Aside p.run) (db : Db) :
  wp apiWorld A (fun _ db' => Untouched db db') p.run db
  := by
  apply Every.wp_rel (G := Untouched) _ _ _ h db
  · exact Untouched.refl
  · exact Untouched.trans
  · intro q hq c s _
    exact hq.untouched c s

/-- A step that leaves nothing is passed over. -/
theorem exact_aside {Post : Except NoombatError β → Db → Prop} {p : Route α}
    {f : α → Route β} {db : Db} (h : Every ApiRequest.Aside p.run)
    {Known : α → Prop}
    (hknown : wp apiWorld A (onExcept (fun a _ => Known a) (fun _ _ => True)) p.run db)
    (herror : ∀ e db', Untouched db db' → Post (.error e) db')
    (hf : ∀ a db', Known a → Untouched db db' →
      Exact apiWorld A (Meets finds) Post (f a).run db') :
  Exact apiWorld A (Meets finds) Post (p >>= f).run db
  := by
  apply exact_run_bind_of_every
  · apply Every.mono _ h
    intro q hq c s _
    exact hq.meets finds c s
  · apply wp_mono _ (wp_and hknown (wp_aside h db))
    rintro (e | a) db' ⟨hknown, huntouched⟩
    · exact herror e db' huntouched
    · exact hf a db' hknown huntouched

end Aside

theorem every_aside_requireLocalActor (viewer : Option Viewer) (username : String) :
  Every ApiRequest.Aside (requireLocalActor viewer username).run
  := every_requireLocalActor aside_findLocalByUsername aside_acceptedMember viewer username

theorem every_aside_parentAuthorOf (inReplyTo : Option String) :
  Every ApiRequest.Aside (parentAuthorOf inReplyTo).run
  := by
  cases inReplyTo with
  | none => apply every_run_pure
  | some uri =>
      rw [parentAuthorOf, run_unwrapOr]
      apply every_bind ((every_run_ask _).mpr (aside_parentAuthor uri))
      intro r
      apply every_done

theorem every_aside_clock :
  Every ApiRequest.Aside (fed Federation.utcNow).run
  := every_fed ((every_run_ask _).mpr aside_utcNow)

/-- What the lookup of the author of the post that is answered returns. -/
theorem wp_lookup {finds : Prop} {db : Db} (inReplyTo : Option String) :
  wp apiWorld (Lookup finds)
    (onExcept
      (fun found _ => (finds → found = parentAuthorIn db inReplyTo) ∧ (¬ finds → found = none))
      (fun _ _ => True))
    (parentAuthorOf inReplyTo).run db
  := by
  cases inReplyTo with
  | none =>
      rw [parentAuthorOf, wp_run_pure]
      exact ⟨fun _ => rfl, fun _ => rfl⟩
  | some uri =>
      rw [parentAuthorOf, run_unwrapOr, wp_bind]
      apply (wp_request (ApiRequest.sql (.parentAuthor uri)) _).mpr
      rintro (_ | e) hc
      · rw [wp_done]
        have hfinds : finds := hc.mp rfl
        exact ⟨fun _ => rfl, fun hnot => absurd hfinds hnot⟩
      · rw [wp_done]
        have hfails : ¬ finds := fun hfinds => by cases hc.mpr hfinds
        exact ⟨fun hfinds => absurd hfinds hfails, fun _ => rfl⟩

/-! ### Single statements -/

section Statements

variable {A : Condition apiWorld} {finds : Prop} {db : Db} {α β : Type}

theorem fed_bind (p : Federation.Handler α) (f : α → Federation.Handler β) :
  (fed (p >>= f)).run = (fed p >>= fun a => fed (f a)).run
  := run_embed_bind asHandler p f

theorem exact_fed_sql (s : Federation.Sql) {C : Condition apiWorld}
    (Post : Except NoombatError s.Result → Db → Prop) :
  Exact apiWorld A C Post (fed (Federation.sql s)).run db ↔
    ∀ c : Federation.SqlChoice, A (.fed (.sql s)) c db →
      (C (.fed (.sql s)) c db →
        Post (fedWorld.exec (.sql s) c db.toDb).1
          (db.withFederation (fedWorld.exec (.sql s) c db.toDb).2)) ∧
      (¬ C (.fed (.sql s)) c db →
        ¬ Post (fedWorld.exec (.sql s) c db.toDb).1
          (db.withFederation (fedWorld.exec (.sql s) c db.toDb).2))
  := by
  change Exact apiWorld A C Post (call (I := Routes) (ApiRequest.fed (.sql s)) fun r => done r) db ↔ _
  rw [exact_call]
  simp only [exact_done, wp_done]
  rfl

/-- The condition on the insertion of a delivery. -/
theorem meets_enqueue (delivery : Delivery) (c : Federation.SqlChoice) :
  Meets finds (.fed (.sql (.enqueueDelivery delivery))) c db ↔ c.error = none
  := and_iff_left (.inr trivial)

/-- How many deliveries are queued. -/
def Db.queued (db : Db) : Nat :=
  db.deliveryQueue.length

theorem queued_eq {db db' : Db} {new : List Delivery} (h : Queued db.toDb db'.toDb new) :
  db'.queued = db.queued + new.length
  := by
  rw [Db.queued, Db.queued, h.queue, List.length_append]

/-- A delivery is queued just if the statement does not fail. -/
theorem exact_enqueue {actorId : Uuid} (hactor : db.hasActor actorId = true) (payload : Json)
    (inbox : String) :
  Exact apiWorld A (Meets finds)
    (fun r db' => r = .ok () ∧ db'.queued = db.queued + 1)
    (fed (Federation.Repo.enqueueDelivery actorId payload inbox)).run db
  := by
  apply (exact_fed_sql (.enqueueDelivery ⟨actorId, payload, inbox⟩) _).mpr
  rintro ⟨error, pick⟩ _
  rw [meets_enqueue]
  cases error with
  | none =>
      constructor
      · intro _
        simp only [fedWorld, Federation.Sql.exec, Federation.Db.enqueueDelivery, hactor, if_true]
        refine ⟨trivial, ?_⟩
        rw [Db.queued, Db.withFederation_toDb, List.length_append]
        rfl
      · intro h
        exact absurd rfl h
  | some e =>
      constructor
      · intro h
        cases h
      · rintro _ ⟨h, _⟩
        cases h

/-- All the deliveries are queued just if no statement fails. -/
theorem exact_enqueueAll {actorId : Uuid} (hactor : db.hasActor actorId = true) (payload : Json)
    (inboxes : List String) :
  Exact apiWorld A (Meets finds) (onExcept (fun _ _ => True) (fun _ _ => False))
    (forM inboxes fun inbox =>
      fed (Federation.Repo.enqueueDelivery actorId payload inbox) : Route PUnit).run db
  := by
  induction inboxes generalizing db with
  | nil =>
      rw [List.forM_nil, run_pure, exact_done]
      trivial
  | cons inbox inboxes ih =>
      rw [List.forM_cons]
      apply exact_run_bind _ (exact_enqueue hactor payload inbox)
      apply wp_mono _ (wp_enqueue actorId payload inbox)
      rintro (e | _) db' h
      · constructor
        · rintro ⟨hok, _⟩
          cases hok
        · rintro _ h
          exact h
      · constructor
        · intro _
          apply ih
          rw [Federation.Db.hasActor, h.actors]
          exact hactor
        · intro hnot
          exact absurd ⟨rfl, queued_eq h⟩ hnot

/-- An announcement that is queued for some of the inboxes. -/
theorem wp_announceAll (actorId : Uuid) (payload : Json) (inboxes : List String) :
  wp apiWorld A
    (onExcept
      (fun _ db' => ∃ new, Queued db.toDb db'.toDb new ∧
        new.Sublist (inboxes.map (Delivery.mk actorId payload)))
      (fun _ _ => False))
    (forM inboxes fun inbox =>
      ignoringErrors (fed (Federation.Repo.enqueueDelivery actorId payload inbox)) :
        Route PUnit).run db
  := by
  induction inboxes generalizing db with
  | nil =>
      rw [List.forM_nil, wp_run_pure]
      exact ⟨[], .refl _, .refl _⟩
  | cons inbox inboxes ih =>
      rw [List.forM_cons, wp_run_bind, wp_ignoringErrors]
      apply wp_mono _ (wp_enqueue actorId payload inbox)
      rintro (e | _) db₁ h₁
      all_goals
        rw [onExcept_ok]
        apply wp_mono _ ih
        rintro (e | _) db₂ h₂
        · exact h₂
        obtain ⟨new, h₂, hnew⟩ := h₂
      · exact ⟨_, h₁.trans h₂, hnew.cons _⟩
      · exact ⟨_, h₁.trans h₂, hnew.cons_cons _⟩

theorem exact_ignoringErrors {C : Condition apiWorld} {Post : Except NoombatError Unit → Db → Prop}
    {p : Route α} (h : Exact apiWorld A C (fun _ db' => Post (.ok ()) db') p.run db) :
  Exact apiWorld A C Post (ignoringErrors p).run db
  := by
  have hrun : (ignoringErrors p).run = p.run >>= fun _ => done (.ok ()) := by
    rw [ignoringErrors, run_bind, run_attempt, bind_assoc]
    rfl
  rw [hrun]
  exact exact_map h

/-- A delivery whose failure is ignored is queued just if the statement does not fail. -/
theorem exact_tryEnqueue {actorId : Uuid} (hactor : db.hasActor actorId = true) (payload : Json)
    (inbox : String) :
  Exact apiWorld A (Meets finds) (fun _ db' => db'.queued = db.queued + 1)
    (ignoringErrors (fed (Federation.Repo.enqueueDelivery actorId payload inbox))).run db
  := by
  apply exact_ignoringErrors
  apply (exact_enqueue hactor payload inbox).congr
  apply wp_mono _ (wp_enqueue actorId payload inbox)
  rintro (e | _) db' h
  · constructor
    · rintro ⟨hok, _⟩
      cases hok
    · intro hone
      rw [queued_eq h] at hone
      simp at hone
  · exact iff_of_true ⟨rfl, queued_eq h⟩ (queued_eq h)

/-- The announcements are all queued just if no statement fails. -/
theorem exact_announceAll {actorId : Uuid} (hactor : db.hasActor actorId = true) (payload : Json)
    (inboxes : List String) :
  Exact apiWorld A (Meets finds) (fun _ db' => db'.queued = db.queued + inboxes.length)
    (forM inboxes fun inbox =>
      ignoringErrors (fed (Federation.Repo.enqueueDelivery actorId payload inbox)) :
        Route PUnit).run db
  := by
  induction inboxes generalizing db with
  | nil =>
      rw [List.forM_nil, run_pure, exact_done]
      rfl
  | cons inbox inboxes ih =>
      rw [List.forM_cons]
      apply exact_run_bind _ (exact_tryEnqueue hactor payload inbox)
      rw [wp_ignoringErrors]
      apply wp_mono _ (wp_enqueue actorId payload inbox)
      intro r db' h
      have hgrown : ∃ new, Queued db.toDb db'.toDb new ∧ new.length ≤ 1 := by
        cases r with
        | error e => exact ⟨_, h, Nat.zero_le 1⟩
        | ok _ => exact ⟨_, h, Nat.le_refl 1⟩
      obtain ⟨new, hqueued, hone⟩ := hgrown
      rw [onExcept_ok, onExcept_ok, List.length_cons]
      constructor
      · intro hMid
        apply (ih _).congr
        · apply wp_mono _ (wp_announceAll actorId payload inboxes)
          rintro _ db'' _
          omega
        · rw [Federation.Db.hasActor, hqueued.actors]
          exact hactor
      · intro hMid
        apply wp_mono _ (wp_announceAll actorId payload inboxes)
        rintro (e | _) db'' h''
        · exact h''.elim
        obtain ⟨more, hmore, hsub⟩ := h''
        have hle := hsub.length_le
        rw [List.length_map] at hle
        rw [queued_eq hmore]
        rw [queued_eq hqueued] at hMid ⊢
        omega

/-- A reply is queued just if the statement does not fail, or none is needed. -/
theorem exact_deliverReply {actorId : Uuid} (hactor : db.hasActor actorId = true)
    (activity : Json) (served : List String) (replyTarget : Option String) :
  Exact apiWorld A (Meets finds)
    (fun _ db' =>
      db'.queued = db.queued + (replyDeliveries actorId activity served replyTarget).length)
    (deliverReply actorId activity served replyTarget).run db
  := by
  cases replyTarget with
  | none =>
      rw [deliverReply, run_pure, exact_done]
      rfl
  | some target =>
      rw [deliverReply, replyDeliveries]
      split
      · rw [run_pure, exact_done]
        rfl
      · apply exact_tryEnqueue hactor

theorem wp_reply (actorId : Uuid) (activity : Json) (served : List String)
    (replyTarget : Option String) :
  wp apiWorld A
    (onExcept
      (fun _ db' => ∃ new, Queued db.toDb db'.toDb new ∧
        new.Sublist (replyDeliveries actorId activity served replyTarget))
      (fun _ _ => False))
    (deliverReply actorId activity served replyTarget).run db
  := by
  cases replyTarget with
  | none =>
      rw [deliverReply, wp_run_pure]
      exact ⟨[], .refl _, .refl _⟩
  | some target =>
      rw [deliverReply, replyDeliveries]
      split
      · rw [wp_run_pure]
        exact ⟨[], .refl _, .refl _⟩
      · rw [wp_ignoringErrors]
        apply wp_mono _ (wp_enqueue actorId activity target)
        rintro (e | _) db' h
        · exact ⟨[], h, List.nil_sublist _⟩
        · exact ⟨_, h, .refl _⟩

/-- Some of what announces an activity to relays. -/
def Announcing (relays : List String) (activity : Json) (sent : List Delivery) : Prop :=
  ∃ all, Announced relays activity all ∧ sent.Sublist all

theorem announced_map (relays : List String) (activity : Json) (actorId : Uuid)
    (announceId instanceApId : String) :
  Announced relays activity (relays.map (Delivery.mk actorId
    (relayAnnounce announceId instanceApId ((activity.getStr "id").getD "unknown"))))
  := by
  constructor
  · rw [List.map_map]
    apply List.map_id
  · intro d hd
    obtain ⟨inbox, _, rfl⟩ := List.mem_map.mp hd
    exact ⟨announceId, instanceApId, rfl⟩

theorem announcing_nil (relays : List String) (activity : Json) :
  Announcing relays activity []
  := ⟨_, announced_map relays activity 0 "" "", List.nil_sublist _⟩

/-- What announces an activity to some relays does so to all of them if it is long enough. -/
theorem Announcing.announced_iff {relays : List String} {activity : Json} {sent : List Delivery}
    (h : Announcing relays activity sent) :
  Announced relays activity sent ↔ sent.length = relays.length
  := by
  constructor
  · intro hall
    rw [← hall.targets, List.length_map]
  · intro hlength
    obtain ⟨all, hall, hsub⟩ := h
    have htargets := congrArg List.length hall.targets
    rw [List.length_map] at htargets
    rw [hsub.eq_of_length (hlength.trans htargets.symm)]
    exact hall

theorem Announcing.length_le {relays : List String} {activity : Json} {sent : List Delivery}
    (h : Announcing relays activity sent) :
  sent.length ≤ relays.length
  := by
  obtain ⟨all, hall, hsub⟩ := h
  have htargets := congrArg List.length hall.targets
  rw [List.length_map] at htargets
  rw [← htargets]
  exact hsub.length_le

/-- The condition on the query of an actor who signs. -/
theorem meets_signingActor (application : Bool) (c : Federation.SqlChoice) :
  Meets finds (.fed (.sql (.signingActor application))) c db ↔
    db.acceptedRelays = [] ∨ c.error = none ∧ (application = true ∨ db.HasSigner)
  := and_iff_left (.inr trivial)

/-- The actor that is picked to sign is a local actor with a private key. -/
theorem hasActor_of_pick {pick : Nat} {p : Actor → Bool} {a : Actor}
    (h : Federation.pickFrom pick (db.actors.rows.filter p) = some a) :
  db.hasActor a.id = true ∧ a ∈ db.actors ∧ p a = true
  := by
  have hmem := List.mem_filter.mp (List.mem_of_getElem? h)
  refine ⟨List.any_eq_true.mpr ⟨a, hmem.1, ?_⟩, hmem.1, hmem.2⟩
  exact beq_self_eq_true a.id

theorem wp_signer :
  wp apiWorld A
    (fun r db' => Queued db.toDb db'.toDb [] ∧ ∀ id, r = .ok id → db.hasActor id = true)
    (fed Federation.findLocalSigningActor).run db
  := by
  have hfed : wp fedWorld (Always fedWorld)
      (fun r fdb => fdb = db.toDb ∧ ∀ id, r = .ok id → db.hasActor id = true)
      Federation.findLocalSigningActor.run db.toDb := by
    rw [Federation.findLocalSigningActor, wp_run_bind]
    apply Federation.wp_sql (.signingActor true)
    · intro e
      exact ⟨rfl, fun id h => by cases h⟩
    rintro ⟨error, pick⟩ _
    rw [Federation.Sql.exec, onExcept_ok]
    cases hpick : Federation.pickFrom pick (db.actors.rows.filter fun a =>
        a.isLocal && a.privateKeyPem.isSome && (!true || a.actorType == .application)) with
    | some a =>
        refine (wp_run_pure _ _ _).mpr ⟨rfl, ?_⟩
        intro id h
        cases h
        exact (hasActor_of_pick hpick).1
    | none =>
        rw [Option.map_none, wp_run_bind]
        apply Federation.wp_sql (.signingActor false)
        · intro e
          exact ⟨rfl, fun id h => by cases h⟩
        rintro ⟨error, pick⟩ _
        rw [Federation.Sql.exec, onExcept_ok, Federation.wp_okOr]
        refine ⟨rfl, ?_⟩
        intro id h
        cases hpick : Federation.pickFrom pick (db.actors.rows.filter fun a =>
            a.isLocal && a.privateKeyPem.isSome && (!false || a.actorType == .application)) with
        | none =>
            rw [hpick] at h
            cases h
        | some a =>
            rw [hpick] at h
            cases h
            exact (hasActor_of_pick hpick).1
  apply wp_mono _ (wp_fed hfed)
  rintro r db' ⟨hdb', hsigner⟩
  rw [hdb']
  exact ⟨.refl _, hsigner⟩

theorem wp_fed_sql (s : Federation.Sql) {Post : Except NoombatError s.Result → Db → Prop}
    (herror : ∀ e, Post (.error e) (db.withFederation db.toDb))
    (hok : ∀ pick, Post (s.exec pick db.toDb).1 (db.withFederation (s.exec pick db.toDb).2)) :
  wp apiWorld A Post (fed (Federation.sql s)).run db
  := by
  have hcall : wp apiWorld A Post
      (call (I := Routes) (ApiRequest.fed (.sql s)) fun r => done r) db := by
    rw [wp_call]
    rintro ⟨error, pick⟩ _
    rw [wp_done]
    cases error with
    | some e => exact herror e
    | none => exact hok pick
  exact hcall

/-- An actor who may sign is picked just if there is one. -/
theorem isSome_pickSigner {pick : Nat} :
  (Federation.pickFrom pick (db.actors.rows.filter fun a =>
    a.isLocal && a.privateKeyPem.isSome && (!false || a.actorType == .application))).isSome = true ↔
      db.HasSigner
  := by
  constructor
  · intro h
    obtain ⟨a, ha⟩ := Option.isSome_iff_exists.mp h
    obtain ⟨_, hmem, hsigns⟩ := hasActor_of_pick ha
    simp only [Bool.and_eq_true] at hsigns
    exact ⟨a, hmem, hsigns.1.1, hsigns.1.2⟩
  · rintro ⟨a, hmem, hlocal, hkey⟩
    have hfiltered : a ∈ db.actors.rows.filter fun a =>
        a.isLocal && a.privateKeyPem.isSome && (!false || a.actorType == .application) := by
      simp [List.mem_filter, hlocal, hkey, Table.mem_rows.mpr hmem]
    have hpositive := List.length_pos_of_mem hfiltered
    rw [Federation.pickFrom, List.getElem?_eq_getElem (Nat.mod_lt _ hpositive)]
    rfl

/-- The query of the actor of the instance is answered, or none is needed. -/
theorem exact_signingApplication :
  Exact apiWorld A (Meets finds) (fun r _ => db.acceptedRelays = [] ∨ r.isOk = true)
    (fed (Federation.Repo.signingActor true)).run db
  := by
  apply (exact_fed_sql (.signingActor true) _).mpr
  rintro ⟨error, pick⟩ _
  rw [meets_signingActor]
  cases error with
  | none => exact ⟨fun _ => .inr rfl, fun hnot => absurd (.inr ⟨rfl, .inl rfl⟩) hnot⟩
  | some e =>
      constructor
      · rintro (hnone | ⟨h, _⟩)
        · exact .inl hnone
        · cases h
      · rintro hnot (hnone | h)
        · exact hnot (.inl hnone)
        · cases h

/-- Some actor who may sign is found, or none is needed. -/
theorem exact_signingAny :
  Exact apiWorld A (Meets finds)
    (fun r _ => db.acceptedRelays = [] ∨ ∃ id, r = .ok (some id))
    (fed (Federation.Repo.signingActor false)).run db
  := by
  apply (exact_fed_sql (.signingActor false) _).mpr
  rintro ⟨error, pick⟩ _
  rw [meets_signingActor]
  cases error with
  | none =>
      simp only [fedWorld, Federation.Sql.exec, Except.ok.injEq]
      rw [← @isSome_pickSigner db pick, Bool.false_eq_true, false_or]
      constructor
      · rintro (hnone | ⟨_, hsome⟩)
        · exact .inl hnone
        · right
          apply Option.isSome_iff_exists.mp
          rw [Option.isSome_map]
          exact hsome
      · rintro hnot (hnone | hsome)
        · exact hnot (.inl hnone)
        · apply hnot
          right
          rw [← Option.isSome_iff_exists, Option.isSome_map] at hsome
          exact ⟨trivial, hsome⟩
  | some e =>
      constructor
      · rintro (hnone | ⟨h, _⟩)
        · exact .inl hnone
        · cases h
      · rintro hnot (hnone | ⟨_, h⟩)
        · exact hnot (.inl hnone)
        · cases h

/-- There is an actor who signs just if no query fails, or none is needed. -/
theorem exact_signer :
  Exact apiWorld A (Meets finds) (fun r _ => db.acceptedRelays = [] ∨ r.isOk = true)
    (fed Federation.findLocalSigningActor).run db
  := by
  rw [Federation.findLocalSigningActor, fed_bind]
  apply exact_run_bind _ exact_signingApplication
  apply wp_fed_sql (.signingActor true)
  · intro e
    exact ⟨fun h => h, fun h => h⟩
  intro pick
  rw [Federation.Sql.exec, onExcept_ok, onExcept_ok]
  refine ⟨fun _ => ?_, fun hnot => absurd (.inr rfl) hnot⟩
  cases hpick : Federation.pickFrom pick (db.actors.rows.filter fun a =>
      a.isLocal && a.privateKeyPem.isSome && (!true || a.actorType == .application)) with
  | some a =>
      rw [Option.map_some]
      change Exact apiWorld A (Meets finds) _ (done (Except.ok a.id)) _
      rw [exact_done]
      exact .inr rfl
  | none =>
      rw [Option.map_none, fed_bind]
      apply exact_run_bind _ (@exact_signingAny _ _ (db.withFederation db.toDb))
      apply wp_fed_sql (.signingActor false)
      · intro e
        constructor
        · rintro (hnone | ⟨_, h⟩)
          · exact .inl hnone
          · cases h
        · rintro hnot (hnone | h)
          · exact hnot (.inl hnone)
          · cases h
      intro pick
      rw [Federation.Sql.exec, onExcept_ok, onExcept_ok]
      cases (Federation.pickFrom pick ((db.withFederation db.toDb).actors.rows.filter fun a =>
          a.isLocal && a.privateKeyPem.isSome && (!false || a.actorType == .application))) with
      | some a =>
          refine ⟨fun _ => ?_, fun hnot => absurd (.inr ⟨_, rfl⟩) hnot⟩
          change Exact apiWorld A (Meets finds) _ (done (Except.ok a.id)) _
          rw [exact_done]
          exact .inr rfl
      | none =>
          constructor
          · rintro (hnone | ⟨_, h⟩)
            · change Exact apiWorld A (Meets finds) _ (done (Except.error _)) _
              rw [exact_done]
              exact .inl hnone
            · cases h
          · intro hnot
            change wp apiWorld A _ (done (Except.error _)) _
            rw [wp_done]
            rintro (hnone | h)
            · exact hnot (.inl hnone)
            · cases h

/-- The actor of the instance is found just if the query does not fail, or none is needed. -/
theorem exact_findById {id : Uuid} (hactor : db.hasActor id = true) :
  Exact apiWorld A (Meets finds) (fun r _ => db.acceptedRelays = [] ∨ r.isOk = true)
    (fed (Federation.Repo.findById id)).run db
  := by
  have hmeets : ∀ (c : Federation.SqlChoice) (db : Db),
      Meets finds (.fed (.sql (.findById id))) c db ↔ db.acceptedRelays = [] ∨ c.error = none :=
    fun c db => and_iff_left (.inr trivial)
  have hquery : Exact apiWorld A (Meets finds)
      (fun r _ => db.acceptedRelays = [] ∨ r.isOk = true)
      (fed (Federation.sql (.findById id))).run db := by
    apply (exact_fed_sql (.findById id) _).mpr
    rintro ⟨error, pick⟩ _
    rw [hmeets]
    cases error with
    | none => exact ⟨fun _ => .inr rfl, fun hnot => absurd (.inr rfl) hnot⟩
    | some e =>
        constructor
        · rintro (hnone | h)
          · exact .inl hnone
          · cases h
        · rintro hnot (hnone | h)
          · exact hnot (.inl hnone)
          · cases h
  rw [Federation.Repo.findById, fed_bind]
  apply exact_run_bind _ hquery
  apply wp_fed_sql (.findById id)
  · intro e
    exact ⟨fun h => h, fun h => h⟩
  intro pick
  rw [Federation.Sql.exec, onExcept_ok, onExcept_ok]
  refine ⟨fun _ => ?_, fun hnot => absurd (.inr rfl) hnot⟩
  obtain ⟨a, hmem, hid⟩ := List.any_eq_true.mp hactor
  have hsome : (db.actors.find (·.id == id)).isSome = true :=
    Table.find_isSome_iff.mpr ⟨a, Table.mem_rows.mp hmem, hid⟩
  obtain ⟨b, hfound⟩ := Option.isSome_iff_exists.mp hsome
  rw [hfound]
  change Exact apiWorld A (Meets finds) _ (done (Except.ok b)) _
  rw [exact_done]
  exact .inr rfl

theorem meets_acceptedRelays (c : Option NoombatError) :
  Meets finds (.sql .acceptedRelays) c db ↔ c = none ∨ db.acceptedRelays = []
  := and_iff_left (.inr trivial)

theorem wp_clock :
  wp apiWorld A (onExcept (fun _ db' => Queued db.toDb db'.toDb []) (fun _ _ => False))
    (fed Federation.utcNow).run db
  := by
  have hfed : wp fedWorld (Always fedWorld)
      (onExcept (fun _ fdb => Queued db.toDb fdb []) (fun _ _ => False))
      Federation.utcNow.run db.toDb := by
    apply Federation.wp_utcNow
    intro now
    exact .refl _
  apply wp_mono _ (wp_fed hfed)
  rintro (e | now) db' h
  · exact h
  · exact h

/-- An announcement goes to some of the relays that have accepted. -/
theorem wp_broadcast (instanceActorId : Uuid) (instanceApId : String) (activity : Json) :
  wp apiWorld A
    (onExcept
      (fun _ db' => ∃ sent, Queued db.toDb db'.toDb sent ∧
        Announcing db.acceptedRelays activity sent)
      (fun _ _ => False))
    (broadcastToRelays instanceActorId instanceApId activity).run db
  := by
  rw [broadcastToRelays, wp_run_bind, run_unwrapOr, wp_bind]
  apply wp_sql .acceptedRelays
  · intro e
    simp only [wp_done, Except.toOption, Option.getD_none, onExcept_ok, List.isEmpty_nil, if_true,
      wp_run_pure]
    exact ⟨[], .refl _, announcing_nil _ _⟩
  rw [wp_done, ApiSql.exec, Except.toOption, Option.getD_some, onExcept_ok, ← Db.acceptedRelays]
  split
  · rw [wp_run_pure]
    exact ⟨[], .refl _, announcing_nil _ _⟩
  rw [wp_run_bind]
  apply wp_mono _ wp_clock
  rintro (e | now) db₁ h₁
  · exact h₁
  rw [onExcept_ok]
  apply wp_mono _ (wp_announceAll instanceActorId _ db.acceptedRelays)
  rintro (e | _) db₂ h₂
  · exact h₂
  obtain ⟨sent, h₂, hsent⟩ := h₂
  exact ⟨_, h₁.trans h₂, _, announced_map _ _ _ _ _, hsent⟩

/-- An announcement goes to all the relays just if no statement fails. -/
theorem exact_broadcast {instanceActorId : Uuid} (hactor : db.hasActor instanceActorId = true)
    (instanceApId : String) (activity : Json) :
  Exact apiWorld A (Meets finds)
    (fun _ db' => db'.queued = db.queued + db.acceptedRelays.length)
    (broadcastToRelays instanceActorId instanceApId activity).run db
  := by
  have hrelays : Exact apiWorld A (Meets finds)
      (fun r db' => r = .ok db.acceptedRelays ∧ db' = db)
      (Fallible.unwrapOr [] (sql .acceptedRelays)).run db := by
    rw [run_unwrapOr]
    apply exact_map
    apply (exact_run_ask (ApiRequest.sql .acceptedRelays) _ _).mpr
    rintro (_ | e) _
    · constructor
      · intro _
        exact ⟨rfl, rfl⟩
      · intro hnot
        exact absurd (meets_acceptedRelays none |>.mpr (.inl rfl)) hnot
    · rw [meets_acceptedRelays]
      constructor
      · rintro (h | hnone)
        · cases h
        · rw [hnone]
          exact ⟨rfl, rfl⟩
      · rintro hnot ⟨h, _⟩
        apply hnot
        right
        exact (Except.ok.inj h).symm
  have hanswer : wp apiWorld A
      (fun r db' => db = db' ∧ (r = .ok db.acceptedRelays ∨ r = .ok []))
      (Fallible.unwrapOr [] (sql .acceptedRelays)).run db := by
    rw [run_unwrapOr, wp_bind]
    apply wp_sql .acceptedRelays
    · intro e
      rw [wp_done]
      exact ⟨rfl, .inr rfl⟩
    · rw [wp_done]
      exact ⟨rfl, .inl rfl⟩
  rw [broadcastToRelays]
  apply exact_run_bind _ hrelays
  apply wp_mono _ hanswer
  rintro _ _ ⟨rfl, rfl | rfl⟩
  · rw [onExcept_ok, onExcept_ok]
    refine ⟨fun _ => ?_, fun hnot => absurd ⟨rfl, rfl⟩ hnot⟩
    split
    · rename_i hempty
      rw [run_pure, exact_done, List.isEmpty_iff.mp hempty]
      rfl
    · apply exact_run_bind_of_every
      · apply Every.mono _ every_aside_clock
        intro q hq c s _
        exact hq.meets finds c s
      · apply wp_mono _ wp_clock
        rintro (e | now) db₁ h₁
        · exact h₁.elim
        · rw [onExcept_ok]
          have hactor₁ : db₁.hasActor instanceActorId = true := by
            rw [Federation.Db.hasActor, h₁.actors]
            exact hactor
          apply (exact_announceAll hactor₁ _ db.acceptedRelays).congr
          apply wp_mono _ (wp_announceAll instanceActorId _ db.acceptedRelays)
          rintro _ db₂ _
          rw [queued_eq h₁]
          rfl
  · rw [onExcept_ok, onExcept_ok, List.isEmpty_nil, if_pos rfl]
    constructor
    · rintro ⟨hnone, _⟩
      rw [run_pure, exact_done, ← Except.ok.inj hnone]
      rfl
    · intro hnot
      rw [wp_run_pure]
      intro hlength
      apply hnot
      have hzero : db.acceptedRelays.length = 0 := by omega
      rw [List.length_eq_zero_iff.mp hzero]
      exact ⟨rfl, rfl⟩

/-- What is announced goes to some of the relays that have accepted. -/
theorem wp_announce (activity : Json) :
  wp apiWorld A
    (onExcept
      (fun _ db' => ∃ sent, Queued db.toDb db'.toDb sent ∧
        Announcing db.acceptedRelays activity sent)
      (fun _ _ => False))
    (announceToRelays activity).run db
  := by
  rw [announceToRelays, wp_run_bind, wp_run_attempt]
  apply wp_mono _ wp_signer
  rintro (e | signer) db₁ ⟨h₁, _⟩
  · rw [onExcept_ok, wp_run_pure]
    exact ⟨[], h₁, announcing_nil _ _⟩
  rw [onExcept_ok, wp_run_bind, wp_run_attempt]
  have hread : ∀ q : FedRequest, q.consults = true → (ApiRequest.fed q).Idle :=
    fun q hq => idle_consults hq
  apply wp_mono _ (wp_idle (every_fed (Federation.every_findById hread signer)) db₁)
  rintro (e | instanceActor) db₂ h₂
  · rw [onExcept_ok, wp_run_pure]
    exact ⟨[], h₁.trans h₂, announcing_nil _ _⟩
  have h := h₁.trans h₂
  rw [onExcept_ok]
  apply wp_mono _ (wp_broadcast signer instanceActor.apId activity)
  rintro (e | _) db₃ h₃
  · exact h₃
  · obtain ⟨sent, h₃, hsent⟩ := h₃
    refine ⟨_, h.trans h₃, ?_⟩
    rw [Db.acceptedRelays, h.relays] at hsent
    exact hsent

theorem acceptedRelays_eq {db' : Db} {new : List Delivery} (h : Queued db.toDb db'.toDb new) :
  db'.acceptedRelays = db.acceptedRelays
  := by
  rw [Db.acceptedRelays, Db.acceptedRelays, h.relays]

/-- The announcement to all relays is queued just if no statement fails on which it depends. -/
theorem exact_announce (activity : Json) :
  Exact apiWorld A (Meets finds)
    (fun _ db' => db'.queued = db.queued + db.acceptedRelays.length)
    (announceToRelays activity).run db
  := by
  rw [announceToRelays]
  -- an announcement that is not made is one to no relay, or is missing
  have hunmade : ∀ db' : Db, Queued db.toDb db'.toDb [] →
      (db'.queued = db.queued + db.acceptedRelays.length ↔ db.acceptedRelays = []) := by
    intro db' h
    rw [queued_eq h, List.length_nil, ← List.length_eq_zero_iff]
    omega
  apply exact_run_bind
    (onExcept (fun signer _ => db.acceptedRelays = [] ∨ signer.isOk = true) (fun _ _ => False))
  · rw [run_attempt]
    apply exact_map
    exact exact_signer
  rw [wp_run_attempt]
  apply wp_mono _ wp_signer
  rintro (e | signer) db₁ ⟨h₁, hsigner⟩
  · simp only [onExcept_ok]
    constructor
    · rintro (hnone | h)
      · rw [run_pure, exact_done]
        exact (hunmade db₁ h₁).mpr hnone
      · cases h
    · intro hnot
      rw [wp_run_pure, hunmade db₁ h₁]
      exact fun hnone => hnot (.inl hnone)
  simp only [onExcept_ok]
  refine ⟨fun _ => ?_, fun hnot => absurd (.inr rfl) hnot⟩
  have hactor₁ : db₁.hasActor signer = true := by
    rw [Federation.Db.hasActor, h₁.actors]
    exact hsigner signer rfl
  apply exact_run_bind
    (onExcept (fun instanceActor _ => db.acceptedRelays = [] ∨ instanceActor.isOk = true)
      (fun _ _ => False))
  · rw [run_attempt]
    apply exact_map
    rw [← acceptedRelays_eq h₁]
    exact exact_findById hactor₁
  rw [wp_run_attempt]
  have hread : ∀ q : FedRequest, q.consults = true → (ApiRequest.fed q).Idle :=
    fun q hq => idle_consults hq
  apply wp_mono _ (wp_idle (every_fed (Federation.every_findById hread signer)) db₁)
  rintro (e | instanceActor) db₂ h₂
  · simp only [onExcept_ok]
    constructor
    · rintro (hnone | h)
      · rw [run_pure, exact_done]
        exact (hunmade db₂ (h₁.trans h₂)).mpr hnone
      · cases h
    · intro hnot
      rw [wp_run_pure, hunmade db₂ (h₁.trans h₂)]
      exact fun hnone => hnot (.inl hnone)
  simp only [onExcept_ok]
  refine ⟨fun _ => ?_, fun hnot => absurd (.inr rfl) hnot⟩
  have hactor₂ : db₂.hasActor signer = true := by
    rw [Federation.Db.hasActor, h₂.actors]
    exact hactor₁
  apply (exact_broadcast hactor₂ instanceActor.apId activity).congr
  apply wp_mono _ (wp_broadcast signer instanceActor.apId activity)
  rintro _ db₃ _
  rw [acceptedRelays_eq (h₁.trans h₂), queued_eq (h₁.trans h₂)]
  rfl

/-- A post is queued for all the followers, or an error is answered. -/
theorem wp_deliver (actorId : Uuid) (visibility : Visibility) (replyTarget : Option String)
    (activity : Json) :
  wp apiWorld A
    (onExcept
      (fun _ db' => ∃ replies sent,
        Queued db.toDb db'.toDb ((db.followerInboxes actorId).map (Delivery.mk actorId activity) ++
          replies ++ sent) ∧
        replies.Sublist (replyDeliveries actorId activity (db.followerInboxes actorId)
          replyTarget) ∧
        Announcing (db.relaysFor visibility) activity sent)
      (fun _ db' => ∃ new, Queued db.toDb db'.toDb new))
    (deliverPost actorId visibility replyTarget activity).run db
  := by
  rw [deliverPost, wp_run_bind]
  apply wp_sql (.followerInboxes actorId)
  · intro e
    exact ⟨[], .refl _⟩
  rw [ApiSql.exec, onExcept_ok, wp_run_bind]
  apply wp_mono _ (wp_enqueueAll actorId activity (db.followerInboxes actorId))
  rintro (e | _) db₁ h₁
  · exact h₁
  rw [onExcept_ok] at h₁ ⊢
  rw [wp_run_bind]
  apply wp_mono _ (wp_reply actorId activity (db.followerInboxes actorId) replyTarget)
  rintro (e | _) db₂ h₂
  · exact h₂.elim
  obtain ⟨replies, h₂, hreplies⟩ := h₂
  have h := h₁.trans h₂
  rw [onExcept_ok, Db.relaysFor]
  split_ifs with hpublic
  · apply wp_mono _ (wp_announce activity)
    rintro (e | _) db₃ h₃
    · exact h₃.elim
    · obtain ⟨sent, h₃, hsent⟩ := h₃
      rw [acceptedRelays_eq h] at hsent
      exact ⟨replies, sent, h.trans h₃, hreplies, hsent⟩
  · rw [wp_run_pure]
    refine ⟨replies, [], ?_, hreplies, announcing_nil _ _⟩
    rw [List.append_nil]
    exact h

/-- A post is queued for those it is delivered to just if no statement fails on which it
depends. -/
theorem exact_deliver {actorId : Uuid} (hactor : db.hasActor actorId = true)
    (visibility : Visibility) (replyTarget : Option String) (activity : Json) :
  Exact apiWorld A (Meets finds)
    (onExcept
      (fun _ db' => db'.queued = db.queued + ((db.followerInboxes actorId).length +
        (replyDeliveries actorId activity (db.followerInboxes actorId) replyTarget).length +
        (db.relaysFor visibility).length))
      (fun _ _ => False))
    (deliverPost actorId visibility replyTarget activity).run db
  := by
  have hmeets : ∀ (c : Option NoombatError) (db : Db),
      Meets finds (.sql (.followerInboxes actorId)) c db ↔ c = none :=
    fun c db => and_iff_left (.inr trivial)
  have hinboxes : Exact apiWorld A (Meets finds) (fun r _ => r.isOk = true)
      (sql (.followerInboxes actorId)).run db := by
    apply (exact_run_ask (ApiRequest.sql (.followerInboxes actorId)) _ _).mpr
    rintro (_ | e) _
    · exact ⟨fun _ => rfl, fun hnot => absurd ((hmeets none db).mpr rfl) hnot⟩
    · exact ⟨fun h => (by cases (hmeets (some e) db).mp h), fun _ h => (by cases h)⟩
  rw [deliverPost]
  apply exact_run_bind _ hinboxes
  apply wp_sql (.followerInboxes actorId)
  · intro e
    exact ⟨fun h => (by cases h), fun _ h => h⟩
  rw [ApiSql.exec, onExcept_ok, onExcept_ok]
  refine ⟨fun _ => ?_, fun hnot => absurd rfl hnot⟩
  apply exact_run_bind _ (exact_enqueueAll hactor activity (db.followerInboxes actorId))
  apply wp_mono _ (wp_enqueueAll actorId activity (db.followerInboxes actorId))
  rintro (e | _) db₁ h₁
  · exact ⟨fun h => h.elim, fun _ h => h⟩
  rw [onExcept_ok] at h₁
  simp only [onExcept_ok]
  refine ⟨fun _ => ?_, fun hnot => absurd trivial hnot⟩
  have hactor₁ : db₁.hasActor actorId = true := by
    rw [Federation.Db.hasActor, h₁.actors]
    exact hactor
  have hqueued₁ := queued_eq h₁
  rw [List.length_map] at hqueued₁
  apply exact_run_bind _
    (exact_deliverReply hactor₁ activity (db.followerInboxes actorId) replyTarget)
  apply wp_mono _ (wp_reply actorId activity (db.followerInboxes actorId) replyTarget)
  rintro (e | _) db₂ h₂
  · exact h₂.elim
  obtain ⟨replies, h₂, hreplies⟩ := h₂
  have h := h₁.trans h₂
  have hle := hreplies.length_le
  have hqueued₂ := queued_eq h₂
  simp only [onExcept_ok]
  rw [Db.relaysFor]
  constructor
  · intro hMid
    split_ifs with hpublic
    · apply (exact_announce activity).congr
      apply wp_mono _ (wp_announce activity)
      rintro (e | _) db₃ h₃
      · exact h₃.elim
      · rw [onExcept_ok, acceptedRelays_eq h]
        omega
    · rw [run_pure, exact_done, onExcept_ok, List.length_nil]
      omega
  · intro hMid
    split_ifs with hpublic
    · apply wp_mono _ (wp_announce activity)
      rintro (e | _) db₃ h₃
      · exact fun h => h
      · obtain ⟨sent, h₃, hsent⟩ := h₃
        have hle' := hsent.length_le
        rw [acceptedRelays_eq h] at hle'
        rw [onExcept_ok, queued_eq h₃]
        omega
    · rw [wp_run_pure, onExcept_ok, List.length_nil]
      omega

/-- What follows the insertion of a post when it is stored. -/
def linkPost (ext : PublishingExternal) (post : NewPost) (attachmentIds : List Uuid)
    (hashtags : List String) (created : Uuid) : Route Uuid := do
  claimAttachments post.actorId created attachmentIds
  linkHashtags ext created hashtags
  return created

/-- No step that follows the insertion of a post fails. -/
theorem wp_linkPost (ext : PublishingExternal) (post : NewPost) (attachmentIds : List Uuid)
    (hashtags : List String) (created : Uuid) :
  wp apiWorld A (fun r _ => r = .ok created)
    (linkPost ext post attachmentIds hashtags created).run db
  := by
  have hclaim : wp apiWorld A (fun r _ => r = .ok ())
      (claimAttachments post.actorId created attachmentIds).run db := by
    rw [claimAttachments]
    split
    · rw [wp_run_pure]
    · rw [wp_ignoringErrors]
      apply wp_mono _ (wp_true _ db)
      intros
      rfl
  have hlink : ∀ db₁ : Db, wp apiWorld A (fun r _ => r = .ok ())
      (linkHashtags ext created hashtags).run db₁ := by
    intro db₁
    rw [linkHashtags]
    split
    · rw [wp_run_pure]
    · rw [wp_ignoringErrors]
      apply wp_mono _ (wp_true _ db₁)
      intros
      rfl
  rw [linkPost, wp_run_bind]
  apply wp_mono _ hclaim
  rintro _ db₁ rfl
  rw [onExcept_ok, wp_run_bind]
  apply wp_mono _ (hlink db₁)
  rintro _ db₂ rfl
  rw [onExcept_ok, wp_run_pure]

/-- A post that could not be stored leaves nothing. -/
theorem wp_store (ext : PublishingExternal) (post : NewPost) (attachmentIds : List Uuid)
    (hashtags : List String) :
  wp apiWorld A (onExcept (fun _ _ => True) (fun _ db' => Untouched db db'))
    (storePost ext post attachmentIds hashtags).run db
  := by
  rw [storePost, wp_run_bind]
  apply wp_fed_sql (.insertLocalPost post)
  · intro e
    exact untouched_withFederation rfl
  intro pick
  rw [Federation.Sql.exec, Federation.Db.insertLocalPost]
  split
  · apply wp_mono _ (wp_linkPost ext post attachmentIds hashtags _)
    rintro _ db' rfl
    trivial
  · exact untouched_withFederation rfl

/-- The condition on the insertion of the post. -/
theorem meets_insertLocalPost (post : NewPost) (c : Federation.SqlChoice) :
  Meets finds (.fed (.sql (.insertLocalPost post))) c db ↔
    finds ∨ c.error.isSome = true ∨ db.insertPost post.toPost = none ∨ db.NeedsNoReply post
  := and_iff_right trivial

/-- If a post is stored, the author of the post that it answers is found, or not needed. -/
theorem exact_store (ext : PublishingExternal) (post : NewPost) (attachmentIds : List Uuid)
    (hashtags : List String) :
  Exact apiWorld A (Meets finds)
    (onExcept (fun _ _ => finds ∨ db.NeedsNoReply post) (fun _ _ => True))
    (storePost ext post attachmentIds hashtags).run db
  := by
  have hinsert : Exact apiWorld A (Meets finds)
      (onExcept (fun _ _ => finds ∨ db.NeedsNoReply post) (fun _ _ => True))
      (fed (Federation.Repo.createLocalPost post)).run db := by
    apply (exact_fed_sql (.insertLocalPost post) _).mpr
    rintro ⟨error, pick⟩ _
    rw [meets_insertLocalPost]
    cases error with
    | some e => exact ⟨fun _ => trivial, fun hnot => absurd (.inr (.inl rfl)) hnot⟩
    | none =>
        simp only [fedWorld, Federation.Sql.exec, Federation.Db.insertLocalPost]
        cases hcore : db.insertPost post.toPost with
        | none => simp
        | some core => simp
  have hmeets : ∀ created, Every (fun q => ∀ c s, A q c s → Meets finds q c s)
      (linkPost ext post attachmentIds hashtags created).run := by
    intro created
    apply every_run_bind
    · rw [claimAttachments]
      split
      · apply every_run_pure
      · apply every_ignoringErrors
        apply (every_run_ask (ApiRequest.sql (.claimAttachments _ _ _))).mpr
        exact fun _ _ _ => ⟨trivial, .inr trivial⟩
    intro _
    apply every_run_bind
    · rw [linkHashtags]
      split
      · apply every_run_pure
      · apply every_ignoringErrors
        apply every_fed
        rw [Federation.linkPostHashtags.eq_def]
        split
        · apply every_run_pure
        · apply every_run_bind
          · apply Federation.every_sql
            exact fun _ _ _ => ⟨trivial, .inr trivial⟩
          intro ids
          apply Federation.every_sql
          exact fun _ _ _ => ⟨trivial, .inr trivial⟩
    intro _
    apply every_run_pure
  rw [storePost]
  apply exact_run_bind _ hinsert
  apply wp_mono _ (wp_true _ db)
  rintro (e | created) db₁ _
  · exact ⟨fun h => h, fun h => h⟩
  · simp only [onExcept_ok]
    constructor
    · intro hMid
      apply exact_of_every (hmeets created)
      apply wp_mono _ (wp_linkPost ext post attachmentIds hashtags created)
      rintro _ db₂ rfl
      exact hMid
    · intro hMid
      apply wp_mono _ (wp_linkPost ext post attachmentIds hashtags created)
      rintro _ db₂ rfl
      exact hMid

end Statements

/-! ### The whole request -/

/-- A post that is there is published wholly just if enough is queued. -/
theorem whole_iff {db db' : Db} {username : String} {author : Actor} {post : Post}
    {activity : Json} {replies sent : List Delivery}
    (hauthor : db.actors.find (fun a => a.username == username && a.isLocal) = some author)
    (hobject : post.apObject = activity) (hnew : post ∉ db.posts)
    (hposts : ∀ p, p ∈ db'.posts ↔ p = post ∨ p ∈ db.posts)
    (hqueue : db'.deliveryQueue = db.deliveryQueue ++
      ((db.followerInboxes author.id).map (Delivery.mk author.id activity) ++ replies ++ sent))
    (hreplies : replies.Sublist (replyDeliveries author.id activity (db.followerInboxes author.id)
      ((parentAuthorIn db post.inReplyTo).bind Prod.snd)))
    (hsent : Announcing (db.relaysFor post.visibility) activity sent) :
  Whole db username (.ok (.CREATED, activity)) db' ↔
    db'.queued = db.queued + ((db.followerInboxes author.id).length +
      (replyDeliveries author.id activity (db.followerInboxes author.id)
        ((parentAuthorIn db post.inReplyTo).bind Prod.snd)).length +
      (db.relaysFor post.visibility).length)
  := by
  have hqueued : db'.queued = db.queued +
      ((db.followerInboxes author.id).length + replies.length + sent.length) := by
    rw [Db.queued, Db.queued, hqueue]
    simp only [List.length_append, List.length_map]
  have hfew := hreplies.length_le
  have hfew' := hsent.length_le
  constructor
  · rintro ⟨author', post', sent', hauthor', -, hwhole⟩
    obtain rfl := Option.some.inj (hauthor.symm.trans hauthor')
    have hpost : post = post' := by
      obtain heq | hold := (hwhole.posts post).mp ((hposts post).mpr (.inl rfl))
      · exact heq
      · exact absurd hold hnew
    subst hpost
    rw [Db.queued, Db.queued, hwhole.queue]
    have hall := congrArg List.length hwhole.relays.targets
    rw [List.length_map] at hall
    simp only [List.length_append, List.length_map, hall]
  · intro hlength
    have hreply := hreplies.eq_of_length (by omega)
    refine ⟨author, post, sent, hauthor, hobject, hnew, hposts, ?_, ?_⟩
    · rw [← hreply]
      exact hqueue
    · exact hsent.announced_iff.mpr (by omega)

theorem parentAuthorIn_eq {db db' : Db} {new : List Delivery} (h : Queued db.toDb db'.toDb new)
    (inReplyTo : Option String) :
  parentAuthorIn db' inReplyTo = parentAuthorIn db inReplyTo
  := by
  cases inReplyTo with
  | none => rfl
  | some uri =>
      rw [parentAuthorIn, parentAuthorIn, Option.bind_some, Option.bind_some, authorOf_eq h]

/-- A post that has been stored is published wholly just if its deliveries are, and the author
of the post that it answers was found, or is not needed. -/
theorem exact_delivered {finds : Prop} {db db₁ db₂ : Db} {username : String} {author : Actor}
    {post : NewPost} {found : Option (String × Option String)}
    (hauthor : db.actors.find (fun a => a.username == username && a.isLocal) = some author)
    (hid : post.actorId = author.id) (huntouched : Untouched db db₁)
    (hfound : (finds → found = parentAuthorIn db post.inReplyTo) ∧ (¬ finds → found = none))
    (hstored : Stored db₁.toDb db₂.toDb { post.toPost with id := db₁.nextId }) :
  ((finds ∨ db₁.NeedsNoReply post) →
    Exact apiWorld (Lookup finds) (Meets finds) (Whole db username)
      (do
        deliverPost author.id post.visibility (found.bind Prod.snd) post.apObject
        return (.CREATED, post.apObject) : Route (StatusCode × Json)).run db₂) ∧
  (¬ (finds ∨ db₁.NeedsNoReply post) →
    wp apiWorld (Lookup finds) (fun r db' => ¬ Whole db username r db')
      (do
        deliverPost author.id post.visibility (found.bind Prod.snd) post.apObject
        return (.CREATED, post.apObject) : Route (StatusCode × Json)).run db₂)
  := by
  have hqueued := huntouched.queued
  have hinboxes : db₂.followerInboxes author.id = db.followerInboxes author.id := by
    rw [Db.followerInboxes, Db.followerInboxes, hstored.follows, hstored.actors, hqueued.follows,
      hqueued.actors]
  have hrelays : db₂.relaysFor post.visibility = db.relaysFor post.visibility := by
    rw [Db.relaysFor, Db.relaysFor, Db.acceptedRelays, Db.acceptedRelays, hstored.relays,
      hqueued.relays]
  have hqueue : db₂.deliveryQueue = db.deliveryQueue := by
    rw [hstored.queue, hqueued.queue, List.append_nil]
  have hactor : db₂.hasActor author.id = true := by
    rw [Federation.Db.hasActor, hstored.actors, hqueued.actors]
    exact List.any_eq_true.mpr ⟨author, Table.mem_of_find hauthor, beq_self_eq_true author.id⟩
  have hparent : parentAuthorIn db₁ post.inReplyTo = parentAuthorIn db post.inReplyTo :=
    parentAuthorIn_eq hqueued post.inReplyTo
  have hneeds : db₁.NeedsNoReply post ↔ replyDeliveries author.id post.apObject
      (db.followerInboxes author.id) ((parentAuthorIn db post.inReplyTo).bind Prod.snd) = [] := by
    rw [Db.NeedsNoReply, hid, hparent, followerInboxes_eq hqueued]
  have hnew : { post.toPost with id := db₁.nextId } ∉ db.posts := by
    rw [← hqueued.posts]
    intro hold
    exact Nat.lt_irrefl _ (db₁.posts_old _ hold)
  -- an error that is answered now leaves the post
  have herror : ∀ (e : NoombatError) (db₃ : Db) (new : List Delivery),
      Queued db₂.toDb db₃.toDb new → ¬ Whole db username (.error e) db₃ := by
    intro e db₃ new h₃ hwhole
    apply hnew
    rw [← hwhole.queued.posts, h₃.posts]
    exact (hstored.posts _).mpr (.inl rfl)
  generalize hreplied : replyDeliveries author.id post.apObject (db.followerInboxes author.id)
    ((parentAuthorIn db post.inReplyTo).bind Prod.snd) = wanted at hneeds
  generalize hfew : replyDeliveries author.id post.apObject (db.followerInboxes author.id)
    (found.bind Prod.snd) = queued
  have hcases : (finds → queued = wanted) ∧ (¬ finds → queued = []) := by
    constructor
    · intro hfinds
      rw [← hreplied, ← hfew, hfound.1 hfinds]
    · intro hfails
      rw [← hfew, hfound.2 hfails]
      rfl
  have hsub : queued.Sublist wanted := by
    by_cases hfinds : finds
    · rw [hcases.1 hfinds]
    · rw [hcases.2 hfinds]
      apply List.nil_sublist
  have hended : ∀ (db₃ : Db) (replies sent : List Delivery),
      Queued db₂.toDb db₃.toDb ((db.followerInboxes author.id).map
        (Delivery.mk author.id post.apObject) ++ replies ++ sent) →
      replies.Sublist queued → Announcing (db.relaysFor post.visibility) post.apObject sent →
      (Whole db username (.ok (.CREATED, post.apObject)) db₃ ↔
        db₃.queued = db₂.queued + ((db.followerInboxes author.id).length + wanted.length +
          (db.relaysFor post.visibility).length)) := by
    intro db₃ replies sent h₃ hreplies hsent
    rw [← hreplied, Db.queued, Db.queued, hqueue]
    apply @whole_iff _ _ _ _ _ _ replies sent hauthor rfl hnew
    · intro p
      rw [h₃.posts, ← hqueued.posts]
      exact hstored.posts p
    · rw [h₃.queue, hqueue]
      rfl
    · rw [← hreplied] at hsub
      exact hreplies.trans hsub
    · exact hsent
  constructor
  · intro hMid
    have hequal : queued = wanted := by
      obtain hfinds | hnone := hMid
      · exact hcases.1 hfinds
      · rw [hneeds.mp hnone] at hsub ⊢
        exact List.sublist_nil.mp hsub
    apply exact_run_bind _ (exact_deliver hactor post.visibility (found.bind Prod.snd) post.apObject)
    apply wp_mono _ (wp_deliver author.id post.visibility (found.bind Prod.snd) post.apObject)
    rintro (e | _) db₃ h₃
    · obtain ⟨new, h₃⟩ := h₃
      exact ⟨fun h => h.elim, fun _ => herror e db₃ new h₃⟩
    · obtain ⟨replies, sent, h₃, hreplies, hsent⟩ := h₃
      rw [hinboxes, hfew] at hreplies
      rw [hinboxes] at h₃
      rw [hrelays] at hsent
      have hiff := hended db₃ replies sent h₃ hreplies hsent
      simp only [onExcept_ok, hinboxes, hrelays, hfew, hequal, run_pure, exact_done, wp_done]
      exact ⟨hiff.mpr, fun hnot hwhole => hnot (hiff.mp hwhole)⟩
  · intro hMid
    obtain ⟨hfails, hwanted⟩ := not_or.mp hMid
    rw [hneeds] at hwanted
    have hnone := hcases.2 hfails
    rw [wp_run_bind]
    apply wp_mono _ (wp_deliver author.id post.visibility (found.bind Prod.snd) post.apObject)
    rintro (e | _) db₃ h₃
    · obtain ⟨new, h₃⟩ := h₃
      exact herror e db₃ new h₃
    · obtain ⟨replies, sent, h₃, hreplies, hsent⟩ := h₃
      rw [hinboxes, hfew] at hreplies
      rw [hinboxes] at h₃
      rw [hrelays] at hsent
      rw [onExcept_ok, wp_run_pure, hended db₃ replies sent h₃ hreplies hsent, queued_eq h₃]
      have hle := hsent.length_le
      have hzero := hreplies.length_le
      have hpositive := List.length_pos_of_ne_nil hwanted
      rw [hnone, List.length_nil] at hzero
      simp only [List.length_append, List.length_map]
      omega

section Outbox

variable {ext : PublishingExternal} {domain : String} {finds : Prop} {db : Db}

/-- A request to publish is done wholly or not at all just if no statement fails on which a
delivery depends, and the author of the post that it answers is found or not needed. -/
theorem exact_postOutbox (viewer : Option Viewer) (username : String) (body : OutboxPostBody) :
  Exact apiWorld (Lookup finds) (Meets finds) (Whole db username)
    (postOutbox ext domain viewer username body).run db
  := by
  have hforget : ∀ {α : Type} (p : Route α) (db : Db),
      wp apiWorld (Lookup finds) (onExcept (fun _ _ => True) (fun _ _ => True)) p.run db := by
    intro α p db
    apply wp_mono _ (wp_true _ db)
    rintro (e | a) _ _
    · trivial
    · trivial
  rw [postOutbox]
  have hauthored : wp apiWorld (Lookup finds)
      (onExcept
        (fun author _ => db.actors.find (fun a => a.username == username && a.isLocal) =
          some author)
        (fun _ _ => True))
      (requireLocalActor viewer username).run db := by
    apply wp_mono _ (wp_requireLocalActor viewer username)
    rintro (e | author) db₁ h₁
    · trivial
    · exact h₁.2
  apply exact_aside (every_aside_requireLocalActor viewer username) hauthored
  · intro e db₁ h₁
    exact h₁
  intro author db₁ hauthor h₁
  apply exact_aside (every_postVisibility (aside_defaultPostVisibility author.id)
    body.visibility) (hforget _ db₁)
  · intro e db₂ h₂
    exact h₁.trans h₂
  intro visibility db₂ _ h₂
  apply exact_aside (every_ofExcept (postTypeOf body)) (hforget _ db₂)
  · intro e db₃ h₃
    exact (h₁.trans h₂).trans h₃
  intro postType db₃ _ h₃
  apply exact_aside ((every_run_ask _).mpr aside_newUuid) (hforget _ db₃)
  · intro e db₄ h₄
    exact ((h₁.trans h₂).trans h₃).trans h₄
  intro uuid db₄ _ h₄
  apply exact_aside (every_ofExcept (ext.render body.content (postType == .article)))
    (hforget _ db₄)
  · intro e db₅ h₅
    exact (((h₁.trans h₂).trans h₃).trans h₄).trans h₅
  intro rendered db₅ _ h₅
  have huntouched₅ := (((h₁.trans h₂).trans h₃).trans h₄).trans h₅
  apply exact_aside (every_aside_parentAuthorOf body.inReplyTo) (wp_lookup body.inReplyTo)
  · intro e db₆ h₆
    exact huntouched₅.trans h₆
  intro found db₆ hfound h₆
  apply exact_aside (every_attachmentObjects
    (aside_unclaimedAttachments author.id body.attachmentIds)) (hforget _ db₆)
  · intro e db₇ h₇
    exact (huntouched₅.trans h₆).trans h₇
  intro attachments db₇ _ h₇
  apply exact_aside every_aside_clock (hforget _ db₇)
  · intro e db₈ h₈
    exact ((huntouched₅.trans h₆).trans h₇).trans h₈
  intro published db₈ _ h₈
  apply exact_aside every_aside_clock (hforget _ db₈)
  · intro e db₉ h₉
    exact (((huntouched₅.trans h₆).trans h₇).trans h₈).trans h₉
  intro signedAt db₉ _ h₉
  have huntouched := (((huntouched₅.trans h₆).trans h₇).trans h₈).trans h₉
  rw [parentAuthorIn_eq huntouched₅.queued] at hfound
  dsimp only
  generalize hdocument : localPost ext domain author body visibility postType _ rendered found
    attachments published = document
  generalize hactivity : document.buildCreateActivity ext.toSigningExternal signedAt author.apId
    author.ed25519PrivateKey = activity
  generalize hpost : document.toNewPost author.id visibility postType activity = post
  have hreply : body.inReplyTo = post.inReplyTo := by
    rw [← hpost, ← hdocument]
    rfl
  have hvisibility : visibility = post.visibility := by
    rw [← hpost]
    rfl
  have hobject : activity = post.apObject := by
    rw [← hpost]
    rfl
  have hid : post.actorId = author.id := by
    rw [← hpost]
    rfl
  rw [hreply] at hfound
  rw [hvisibility, hobject]
  apply exact_run_bind _ (exact_store ext post body.attachmentIds rendered.2)
  apply wp_mono _ (wp_and (wp_storePost ext post body.attachmentIds rendered.2)
    (wp_store ext post body.attachmentIds rendered.2))
  rintro (e | created) db₁₀ ⟨hstored, hleft⟩
  · exact ⟨fun _ => huntouched.trans hleft, fun hnot => absurd trivial hnot⟩
  · exact exact_delivered hauthor hid huntouched hfound hstored

/-- The request looks the author of a post up. -/
def ApiRequest.IsLookup : ApiRequest → Prop
  | .sql (.parentAuthor _) => True
  | _ => False

theorem every_fed_other {α : Type} (p : Federation.Handler α) :
  Every (fun q => ¬ ApiRequest.IsLookup q) (fed p).run
  := by
  apply every_fed
  apply Every.mono _ (every_true p.run)
  exact fun q _ h => h

theorem every_storePost_other (post : NewPost) (attachmentIds : List Uuid)
    (hashtags : List String) :
  Every (fun q => ¬ ApiRequest.IsLookup q) (storePost ext post attachmentIds hashtags).run
  := by
  apply every_run_bind (every_fed_other _)
  intro created
  apply every_run_bind
  · rw [claimAttachments]
    split
    · apply every_run_pure
    · apply every_ignoringErrors
      exact (every_run_ask (ApiRequest.sql (.claimAttachments _ _ _))).mpr fun h => h
  intro _
  apply every_run_bind
  · rw [linkHashtags]
    split
    · apply every_run_pure
    · apply every_ignoringErrors
      apply every_fed_other
  intro _
  apply every_run_pure

theorem every_broadcast_other (instanceActorId : Uuid) (instanceApId : String) (activity : Json) :
  Every (fun q => ¬ ApiRequest.IsLookup q)
    (broadcastToRelays instanceActorId instanceApId activity).run
  := by
  rw [broadcastToRelays]
  apply every_run_bind
  · rw [run_unwrapOr]
    apply every_bind ((every_run_ask (ApiRequest.sql .acceptedRelays)).mpr fun h => h)
    intro r
    apply every_done
  intro relays
  split
  · apply every_run_pure
  · apply every_run_bind (every_fed_other _)
    intro now
    apply every_run_forM
    intro inbox _
    apply every_ignoringErrors
    apply every_fed_other

theorem every_deliverPost_other (actorId : Uuid) (visibility : Visibility)
    (replyTarget : Option String) (activity : Json) :
  Every (fun q => ¬ ApiRequest.IsLookup q)
    (deliverPost actorId visibility replyTarget activity).run
  := by
  apply every_run_bind
    ((every_run_ask (ApiRequest.sql (.followerInboxes actorId))).mpr fun h => h)
  intro inboxes
  apply every_run_bind
  · apply every_run_forM
    intro inbox _
    apply every_fed_other
  intro _
  apply every_run_bind
  · cases replyTarget with
    | none => apply every_run_pure
    | some target =>
        rw [deliverReply]
        split
        · apply every_run_pure
        · apply every_ignoringErrors
          apply every_fed_other
  intro _
  split
  · rw [announceToRelays]
    apply every_run_bind (every_run_attempt (every_fed_other _))
    rintro (e | signer)
    · apply every_run_pure
    apply every_run_bind (every_run_attempt (every_fed_other _))
    rintro (e | instanceActor)
    · apply every_run_pure
    apply every_broadcast_other
  · apply every_run_pure

/-- The author of a post is looked up at most once. -/
theorem atMostOnce_postOutbox (viewer : Option Viewer) (username : String)
    (body : OutboxPostBody) :
  AtMostOnce ApiRequest.IsLookup (postOutbox ext domain viewer username body).run
  := by
  rw [postOutbox]
  apply atMostOnce_run_bind (every_requireLocalActor (fun _ h => h) (fun _ _ h => h) viewer username)
  intro actor
  apply atMostOnce_run_bind (every_postVisibility (fun h => h) body.visibility)
  intro visibility
  apply atMostOnce_run_bind (every_ofExcept _)
  intro postType
  apply atMostOnce_run_bind ((every_run_ask ApiRequest.newUuid).mpr fun h => h)
  intro uuid
  apply atMostOnce_run_bind (every_ofExcept _)
  intro rendered
  apply atMostOnce_run_bind_of_every
  · cases body.inReplyTo with
    | none => trivial
    | some uri =>
        rw [parentAuthorOf, run_unwrapOr]
        left
        exact ⟨trivial, fun r => every_done _⟩
  intro parentAuthor
  apply every_run_bind (every_attachmentObjects fun h => h)
  intro attachments
  apply every_run_bind (every_fed_other _)
  intro published
  apply every_run_bind (every_fed_other _)
  intro signedAt
  apply every_run_bind (every_storePost_other _ _ _)
  intro created
  apply every_run_bind (every_deliverPost_other _ _ _ _)
  intro _
  apply every_run_pure

/-- A request to publish is done wholly or not at all just if no statement fails on which a
delivery depends; and the lookup of the author of the post that it answers does not fail, unless
the post is not inserted or needs no reply. -/
theorem postOutbox_whole_iff (ext : PublishingExternal) (domain : String) (db : Db)
    (viewer : Option Viewer) (username : String) (body : OutboxPostBody)
    (script : Script apiWorld) :
  Whole db username (run apiWorld script (postOutbox ext domain viewer username body).run db).1
      (run apiWorld script (postOutbox ext domain viewer username body).run db).2 ↔
    Along apiWorld Serves script (postOutbox ext domain viewer username body).run db ∧
      (Along apiWorld FindsParent script (postOutbox ext domain viewer username body).run db ∨
        Along apiWorld NeedsNoParent script (postOutbox ext domain viewer username body).run db)
  := by
  have honce := @atMostOnce_postOutbox ext domain viewer username body
  have hexact := fun finds => @exact_postOutbox ext domain finds db viewer username body
  generalize (postOutbox ext domain viewer username body).run = p at honce hexact ⊢
  by_cases hfinds : Along apiWorld FindsParent script p db
  · have hlookup : Along apiWorld (Lookup True) script p db := by
      apply AlongFrom.mono _ hfinds
      intro q c s hc
      unfold Lookup
      split
      · exact iff_of_true hc trivial
      · trivial
    rw [(hexact True).run hlookup, and_iff_left (.inl hfinds)]
    constructor
    · intro h
      exact AlongFrom.mono (fun q c s hc => hc.1) h
    · intro h
      exact AlongFrom.mono (fun q c s hc => ⟨hc, .inl trivial⟩) h
  · have hlookup : Along apiWorld (Lookup False) script p db := by
      obtain hall | hnone := honce.along FindsParent
      · exfalso
        apply hfinds
        apply AlongFrom.mono _ hall
        intro q c s hc
        unfold FindsParent
        split
        · exact hc trivial
        · trivial
      · apply AlongFrom.mono _ hnone
        intro q c s hc
        unfold Lookup
        split
        · exact iff_of_false (hc trivial) not_false
        · trivial
    rw [(hexact False).run hlookup, or_iff_right hfinds]
    constructor
    · intro h
      exact ⟨AlongFrom.mono (fun q c s hc => hc.1) h,
        AlongFrom.mono (fun q c s hc => hc.2.resolve_left not_false) h⟩
    · intro h
      exact AlongFrom.mono (fun q c s hc => ⟨hc.1, .inr hc.2⟩) (h.1.and h.2)

end Outbox

/-! ### A post that is left -/

/-- The environment in which no delivery can be queued. -/
def unqueued : Script apiWorld
  | _, .fed (.sql (.enqueueDelivery _)) => (⟨some (.database "connection closed"), 0⟩ :
      Federation.SqlChoice)
  | _, .newUuid => "first"
  | n, q => undisturbed n q

/-- Al publishes a note for anyone, which cannot be queued for Rob. -/
def alFails : Except NoombatError (StatusCode × Json) × Db :=
  run apiWorld unqueued (postOutbox .plain "h.ex" (some ⟨2⟩) "al" (noteFor "public")).run
    followedByRob

/-- The note is left when an error is answered, and is there twice when it is published again. -/
theorem postOutbox_leaves_post :
  ¬ Whole followedByRob "al" alFails.1 alFails.2 ∧
    alFails.1.isOk = false ∧ followedByRob.posts.rows.length + 1 = alFails.2.posts.rows.length ∧
    (run apiWorld undisturbed (postOutbox .plain "h.ex" (some ⟨2⟩) "al" (noteFor "public")).run
      alFails.2).2.posts.rows.length = followedByRob.posts.rows.length + 2
  := by
  have herror : alFails.1.isOk = false := by
    decide +kernel
  have hposts : followedByRob.posts.rows.length + 1 = alFails.2.posts.rows.length := by
    decide +kernel
  refine ⟨?_, herror, hposts, by decide +kernel⟩
  intro hwhole
  generalize hended : alFails = ended at hwhole herror hposts
  obtain ⟨e | answer, db'⟩ := ended
  · have hsame := hwhole.queued.posts
    rw [hsame] at hposts
    exact Nat.succ_ne_self _ hposts
  · cases herror

end Api
