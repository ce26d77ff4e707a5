import Noombat.Federation.Storing

/-!
# The origin of fetched posts

A post that is fetched because it was announced is stored under the identifier that its
document claims and the author that it names.  Neither is compared with the origin that
served the document, so that the three agree just when the document is honest.
-/

namespace Federation

open Fallible Program

/-- The author that a fetched document names. -/
def attributedTo (object : Json) : Option String :=
  (object.get "attributedTo").bind firstString

variable {ext : External} {C : Condition fedWorld}

theorem describeFetched_ok {object : Json} {postType : PostType} {apId authorUri : String}
    (h : describeFetched object = .ok (postType, apId, authorUri)) :
  object.getStr "id" = some apId ∧ attributedTo object = some authorUri
  := by
  unfold describeFetched at h
  simp only at h
  split at h
  · cases h
  · cases h
  · cases h
  · rename_i hid hauthor
    cases h
    exact ⟨hid, hauthor⟩

/-- A post under the identifier of a document, with its content, of the author that the one
it names is resolved to. -/
def FetchedFrom (ext : External) (C : Condition fedWorld) (object : Json) (core : Core)
    (p : Post) : Prop :=
  ∃ apId authorUri, object.getStr "id" = some apId ∧ attributedTo object = some authorUri ∧
    PostOf ext apId object (ResolvesTo ext C authorUri) core p

theorem wp_persistFetched (object : Json) (apId authorUri : String) (postType : PostType)
    {content : PostContent} («to» cc : Option (List String)) (proofVerified : Option Bool)
    (hcontent : content = postContent ext object «to» cc proofVerified) (db : Db) :
  wp fedWorld C
    (fun _ db' => db.toCore.Stores db'.toCore
      (PostOf ext apId object (ResolvesTo ext C authorUri)))
    (persistFetched ext object apId authorUri postType content).run db
  := by
  unfold persistFetched
  have hgrows := every_resolveActor (P := FedRequest.Growing) ext (FedRequest.consulting fun q hq => .inl hq)
    (fun remote => .inr (.inl ⟨remote, rfl⟩)) authorUri
  rw [wp_run_bind]
  apply wp_mono _ (wp_and (wp_growing hgrows db) (wp_resolveActor authorUri db))
  rintro (e | author) db₁ ⟨hdb₁, hresolved⟩
  · apply hdb₁.keeps.stores
  obtain ⟨hknows, hauthor⟩ := hresolved
  rw [onExcept_ok, wp_run_bind]
  have hrecord : Every FedRequest.Keeping (recordIfVerified apId object authorUri content).run :=
    every_recordIfVerified (.inr (.inl ⟨_, _, _, rfl⟩))
  apply wp_mono _ (wp_keeping hrecord db₁)
  rintro (e | _) db₂ hdb₂
  · apply (hdb₁.keeps.trans hdb₂).stores
  rw [onExcept_ok, wp_run_bind]
  apply wp_mono _ (wp_createRemotePost _ db₂)
  intro r db₃ hstores
  have hpost : db.toCore.Stores db₃.toCore
      (PostOf ext apId object (ResolvesTo ext C authorUri)) := by
    apply (hdb₁.keeps.trans hdb₂).trans_stores
    apply hstores.mono
    rintro p ⟨rfl, hknown⟩
    apply postOf_remotePost «to» cc proofVerified hcontent (hknown (hdb₂.knows hknows)) hauthor
  rcases r with e | _ | id
  · exact hpost
  · rw [onExcept_ok]
    have hread : Every FedRequest.Keeping (Repo.postIdByApId apId >>= fun existing =>
        okOr (.internal s!"post {apId} not found after concurrent insert") existing).run := by
      apply every_run_bind (every_sql (keeping_of_isMinor rfl))
      intro existing
      apply every_okOr
    apply wp_mono _ (wp_keeping hread db₃)
    intro _ db₄ hkeeps
    apply hpost.trans_keeps PostOf.lasting hkeeps
  · rw [onExcept_ok, wp_run_bind]
    have hannotate : Every FedRequest.Keeping (annotatePost ext id object).run :=
      every_annotatePost (fun _ => keeping_of_isMinor) id object
        (fun uri => .inr (.inr (.inr ⟨id, uri, rfl⟩)))
    apply wp_mono _ (wp_keeping hannotate db₃)
    rintro (e | _) db₄ hkeeps
    · apply hpost.trans_keeps PostOf.lasting hkeeps
    · rw [onExcept_ok, wp_run_pure]
      apply hpost.trans_keeps PostOf.lasting hkeeps

/-- What a fetch leaves behind are the posts that were there, and one that is taken from the
document that was served. -/
theorem wp_persistResponse (response : Response) (db : Db) :
  wp fedWorld C
    (fun _ db' => db.toCore.Stores db'.toCore fun core p =>
      ∃ object, response.json = .ok object ∧ FetchedFrom ext C object core p)
    (persistResponse ext response).run db
  := by
  unfold persistResponse
  split
  · rw [wp_run_bind, wp_ofExcept]
    cases hjson : response.json with
    | error e => apply (Core.Keeps.refl _).stores
    | ok object =>
        rw [onExcept_ok, wp_run_bind, wp_ofExcept]
        cases hdescribe : describeFetched object with
        | error e => apply (Core.Keeps.refl _).stores
        | ok description =>
            obtain ⟨postType, apId, authorUri⟩ := description
            obtain ⟨hapId, hauthor⟩ := describeFetched_ok hdescribe
            have hgrows := every_verifyObjectProof (P := FedRequest.Growing) ext
              (FedRequest.consulting fun q hq => .inl hq) (fun remote => .inr (.inl ⟨remote, rfl⟩)) object authorUri
            simp only [onExcept_ok, wp_run_bind]
            apply wp_mono _ (wp_growing hgrows db)
            rintro (e | proofVerified) db₁ hdb₁
            · apply hdb₁.keeps.stores
            simp only [onExcept_ok, wp_unwrapOr]
            apply wp_mono _ (wp_growing (every_tryDedup (fun q hq => .inl (FedRequest.writesCore_of_isMinor hq)) object) db₁)
            intro existing db₂ hdb₂
            have hkeeps := (hdb₁.trans hdb₂).keeps
            split
            · rw [wp_run_pure]
              apply hkeeps.stores
            · apply wp_mono _ (wp_persistFetched object apId authorUri postType _ _ _ rfl db₂)
              intro _ db₃ hstores
              apply hkeeps.trans_stores (hstores.mono fun p hp =>
                ⟨object, rfl, apId, authorUri, hapId, hauthor, hp⟩)
  · rw [wp_run_throw]
    apply (Core.Keeps.refl _).stores

/-! ### One origin -/

/-- A post, its author and the answer it was taken from are of one origin. -/
def OneOrigin (ext : External) (core : Core) (finalUrl : Url) (p : Post) : Prop :=
  originOf ext p.apId = some finalUrl.origin ∧
    ∃ author, core.Knows p.actorId author ∧ originOf ext author = some finalUrl.origin

/-- A document claims an identifier, and names an author, of the origin that served it. -/
def HonestOrigin (ext : External) (finalUrl : Url) (object : Json) : Prop :=
  (object.getStr "id").bind (originOf ext) = some finalUrl.origin ∧
    (attributedTo object).bind (originOf ext) = some finalUrl.origin

theorem FetchedFrom.oneOrigin_iff {object : Json} {core : Core} {p : Post} {finalUrl : Url}
    (h : FetchedFrom ext C object core p) :
  OneOrigin ext core finalUrl p ↔ HonestOrigin ext finalUrl object
  := by
  obtain ⟨apId, authorUri, hapId, hattributed, rfl, _, author, hknows, hresolves⟩ := h
  unfold OneOrigin HonestOrigin
  rw [hapId, hattributed, Option.bind_some, Option.bind_some, ← hresolves.originOf_eq]
  constructor
  · rintro ⟨hid, author', hknows', horigin⟩
    rw [hknows.unique hknows']
    exact ⟨hid, horigin⟩
  · rintro ⟨hid, horigin⟩
    exact ⟨hid, author, hknows, horigin⟩

/-- A fetched post is of one origin, with its author and the answer it was taken from, just
when the document claims an identifier and names an author of the origin that served it. -/
theorem fetchedPost_oneOrigin_iff (ext : External) (uri : String) (db : Db)
    (script : Script fedWorld) (p : Post)
    (hp : p ∈ (run fedWorld script (fetchAndPersistRemotePost ext uri).run db).2.posts)
    (hnew : db.nextId ≤ p.id) :
  ∃ response object, script 0 (.guardedGet uri) = .ok response ∧ response.json = .ok object ∧
    (OneOrigin ext (run fedWorld script (fetchAndPersistRemotePost ext uri).run db).2.toCore
        response.url p ↔
      HonestOrigin ext response.url object)
  := by
  have hstep : run fedWorld script (fetchAndPersistRemotePost ext uri).run db =
      runFrom fedWorld script 1
        (ExceptT.bindCont (persistResponse ext) (script 0 (.guardedGet uri))) db := rfl
  rw [hstep] at hp ⊢
  rcases hanswer : script 0 (.guardedGet uri) with e | response
  · rw [hanswer] at hp
    have hold := db.posts_old p hp
    exact absurd hold (Nat.not_lt_of_ge hnew)
  · rw [hanswer] at hp
    have hstores := wp_runFrom script 1 (wp_persistResponse response db)
      (alongFrom_always script 1 (persistResponse ext response).run db)
    obtain ⟨object, hjson, hfetched⟩ := hstores.new hp hnew
    exact ⟨response, object, rfl, hjson, hfetched.oneOrigin_iff⟩

/-! ### A document of another origin -/

/-- The answer to every fetch is a given document, at the URL it is served from. -/
def serveDocument (object : Json) (url : String) : Except NoombatError Response :=
  (Url.parsePlain url).map (fun url =>
    { status := 200
      url
      json := .ok object
      actor := .error (.federation "invalid JSON") }) |>.mapError .federation

/-- A note with an author. -/
def note (id author : String) : Json :=
  .obj [("attributedTo", .str author), ("content", .str "hello"), ("id", .str id),
    ("type", .str "Note")]

/-- One server serves a note that it says is another's. -/
def foreignNote : Program.Script fedWorld :=
  steady (serveDocument (note "https://b.example/n" "https://b.example/u"))

def foreignNoteRun : Except NoombatError Uuid × Db :=
  run fedWorld foreignNote (fetchAndPersistRemotePost .plain "https://a.example/n").run
    (dbOf [.remote "https://b.example/u" "u" "PEM" none])

/-- The note is stored under its supposed author. -/
theorem foreignNote_stored :
  ∃ p ∈ foreignNoteRun.2.posts,
    (dbOf [.remote "https://b.example/u" "u" "PEM" none]).nextId ≤ p.id ∧
    p.apId = "https://b.example/n"
  := by
  have hany : (foreignNoteRun.2.posts.rows.any fun p =>
      decide ((dbOf [.remote "https://b.example/u" "u" "PEM" none]).nextId ≤ p.id) &&
        p.apId == "https://b.example/n") = true := by
    decide +kernel
  obtain ⟨p, hp, htest⟩ := List.any_eq_true.mp hany
  simp only [Bool.and_eq_true, decide_eq_true_eq, beq_iff_eq] at htest
  exact ⟨p, hp, htest⟩

/-- A server can have a note stored that is not of its origin. -/
theorem foreignNote_not_oneOrigin :
  ∃ p ∈ foreignNoteRun.2.posts,
    (dbOf [.remote "https://b.example/u" "u" "PEM" none]).nextId ≤ p.id ∧
    ∃ response, foreignNote 0 (.guardedGet "https://a.example/n") = .ok response ∧
      ¬ OneOrigin .plain foreignNoteRun.2.toCore response.url p
  := by
  obtain ⟨p, hp, hnew, hapId⟩ := foreignNote_stored
  refine ⟨p, hp, hnew, _, rfl, ?_⟩
  rintro ⟨horigin, _⟩
  rw [hapId] at horigin
  revert horigin
  decide +kernel

/-- The note that is stored is an instance of the general statement. -/
theorem foreignNote_oneOrigin_iff :
  ∃ p ∈ foreignNoteRun.2.posts, ∃ response object,
    foreignNote 0 (.guardedGet "https://a.example/n") = .ok response ∧
    response.json = .ok object ∧
    (OneOrigin .plain foreignNoteRun.2.toCore response.url p ↔
      HonestOrigin .plain response.url object)
  := by
  obtain ⟨p, hp, hnew, _⟩ := foreignNote_stored
  exact ⟨p, hp, fetchedPost_oneOrigin_iff .plain "https://a.example/n"
    (dbOf [.remote "https://b.example/u" "u" "PEM" none]) foreignNote p hp hnew⟩

end Federation
