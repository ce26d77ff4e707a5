import Noombat.Federation.Effects

/-!
# The rows after a request

What a request can do to posts and actors, said once: a post that is there after a request
was there before, as it is or rewritten by the request, or was inserted by it; and an
identifier never comes to stand for another actor.
-/

namespace Federation

open Program

/-! ### Posts -/

/-- What a request may make of a post. -/
inductive FedRequest.Rewrites : FedRequest → Post → Post → Prop where
  | same (q : FedRequest) (p : Post) : Rewrites q p p
  | edit {p : Post} (content : PostContent) (author : String) :
      Rewrites (.sql (.updateRemotePost p.apId content author)) p { p with toPostContent := content }
  | verified {p : Post} (object : Json) (author : String) :
      p.integrityProofVerified ≠ some true →
      Rewrites (.sql (.recordVerifiedProof p.apId object author)) p
        { p with integrityProofVerified := some true }
  | unverified {p : Post} :
      Rewrites (.sql (.markRelayedUnverified p.apId)) p { p with relayedUnverified := true }
  | canonical {p : Post} (uri : String) :
      Rewrites (.sql (.setCanonicalUri p.id uri)) p { p with canonicalUri := some uri }
  | resanitise {p : Post} (contentHtml : String) (contentMd : Option (Option String))
      (version : Nat) :
      Rewrites (.sql (.resanitisePost p.id contentHtml contentMd version)) p
        ((PostChange.resanitise contentHtml contentMd version).apply p)

namespace FedRequest.Rewrites

variable {q : FedRequest} {p p' : Post}

theorem id_eq (h : q.Rewrites p p') :
  p'.id = p.id
  := by
  cases h <;> rfl

theorem apId_eq (h : q.Rewrites p p') :
  p'.apId = p.apId
  := by
  cases h <;> rfl

theorem mark (h : q.Rewrites p p') :
  p'.relayedUnverified = p.relayedUnverified ∨
    q = .sql (.markRelayedUnverified p.apId) ∧ p'.relayedUnverified = true
  := by
  cases h with
  | unverified => exact .inr ⟨rfl, rfl⟩
  | _ => exact .inl rfl

end FedRequest.Rewrites

/-- The posts that a request may insert, under a new identifier. -/
inductive FedRequest.Inserts : FedRequest → Post → Prop where
  | remote (post : RemotePost) : Inserts (.sql (.insertRemotePost post)) post.toPost
  | ofNew (post : NewPost) : Inserts (.sql (.insertLocalPost post)) post.toPost

/-- A post that is there after a request was there before, rewritten at most, or it is
inserted. -/
def FedRequest.Posted (q : FedRequest) (core : Core) (p' : Post) : Prop :=
  (∃ p ∈ core.posts, q.Rewrites p p') ∨ ∃ p, q.Inserts p ∧ p' = { p with id := core.nextId }

theorem FedRequest.posted_of_mem {q : FedRequest} {core : Core} {p : Post} (hp : p ∈ core.posts) :
  q.Posted core p
  := .inl ⟨p, hp, .same q p⟩

theorem posted_of_updatePosts {q : FedRequest} {core : Core} {cond : Post → Bool} {f : PostChange}
    (h : ∀ p ∈ core.posts, cond p = true → q.Rewrites p (f.apply p)) {p' : Post}
    (hp' : p' ∈ (core.updatePosts cond f).posts) :
  q.Posted core p'
  := by
  obtain ⟨p, hp, rfl⟩ := Core.mem_updatePosts.mp hp'
  refine .inl ⟨p, hp, ?_⟩
  split
  · rename_i hcond
    apply h p hp hcond
  · apply FedRequest.Rewrites.same

theorem posted_of_insertPost {q : FedRequest} {core core' : Core} {p : Post}
    (hq : q.Inserts p) (h : core.insertPost p = some core') {p' : Post} (hp' : p' ∈ core'.posts) :
  q.Posted core p'
  := by
  rcases ((Core.of_insertPost h).2.2 p').mp hp' with rfl | hp'
  · exact .inr ⟨p, hq, rfl⟩
  · exact FedRequest.posted_of_mem hp'

theorem exec_posted {q : FedRequest} {c : fedWorld.Choice q} {db : Db} {p' : Post}
    (hp' : p' ∈ (fedWorld.exec q c db).2.posts) :
  q.Posted db.toCore p'
  := by
  by_cases hread : q.writesCore = false
  · rw [exec_toCore hread] at hp'
    exact FedRequest.posted_of_mem hp'
  cases q with
  | sql s =>
      simp only [fedWorld] at hp'
      split at hp'
      · exact FedRequest.posted_of_mem hp'
      cases s with
      | upsertRemoteActor remote =>
          rw [show (Sql.exec c.pick (.upsertRemoteActor remote) db).2.posts = db.posts from
            (Db.upsertRemoteActor_grows remote db).posts_eq] at hp'
          exact FedRequest.posted_of_mem hp'
      | setMovedTo target id =>
          rw [show (Sql.exec c.pick (.setMovedTo target id) db).2.posts = db.posts from
            (Db.setMovedTo_grows target id db).posts_eq] at hp'
          exact FedRequest.posted_of_mem hp'
      | deleteRemoteActor id => exact FedRequest.posted_of_mem (Core.mem_deleteActors_posts.mp hp').1
      | deletePost apId => exact FedRequest.posted_of_mem (Core.mem_deletePosts.mp hp').1
      | deletePostById id => exact FedRequest.posted_of_mem (Core.mem_deletePosts.mp hp').1
      | insertRemotePost post =>
          simp only [Sql.exec, Db.insertRemotePost] at hp'
          split at hp'
          · exact FedRequest.posted_of_mem hp'
          · split at hp'
            · rename_i core hcore
              exact posted_of_insertPost (.remote post) hcore hp'
            · exact FedRequest.posted_of_mem hp'
      | insertLocalPost post =>
          simp only [Sql.exec, Db.insertLocalPost] at hp'
          split at hp'
          · rename_i core hcore
            exact posted_of_insertPost (.ofNew post) hcore hp'
          · exact FedRequest.posted_of_mem hp'
      | updateRemotePost apId content author =>
          apply posted_of_updatePosts _ hp'
          intro p _ hp
          simp only [Db.isAuthored, Bool.and_eq_true, beq_iff_eq] at hp
          rw [← hp.1]
          exact .edit content author
      | recordVerifiedProof apId object author =>
          apply posted_of_updatePosts _ hp'
          intro p _ hp
          simp only [Bool.and_eq_true, beq_iff_eq, bne_iff_ne] at hp
          rw [← hp.1]
          exact .verified object author hp.2
      | markRelayedUnverified apId =>
          apply posted_of_updatePosts _ hp'
          intro p _ hp
          rw [← beq_iff_eq.mp hp]
          exact .unverified
      | setCanonicalUri id uri =>
          apply posted_of_updatePosts _ hp'
          intro p _ hp
          rw [← beq_iff_eq.mp hp]
          exact .canonical uri
      | resanitisePost id contentHtml contentMd version =>
          apply posted_of_updatePosts _ hp'
          intro p _ hp
          rw [← beq_iff_eq.mp hp]
          exact .resanitise contentHtml contentMd version
      | _ => exact absurd rfl hread
  | _ => exact absurd rfl hread

/-- A request never takes an identifier back. -/
theorem exec_nextId_le (q : FedRequest) (c : fedWorld.Choice q) (db : Db) :
  db.nextId ≤ (fedWorld.exec q c db).2.nextId
  := by
  by_cases hread : q.writesCore = false
  · simp only [exec_toCore hread, Nat.le_refl]
  cases q with
  | sql s =>
      simp only [fedWorld]
      split
      · apply Nat.le_refl
      cases s with
      | upsertRemoteActor remote => apply (Db.upsertRemoteActor_grows remote db).nextId_le
      | setMovedTo target id => apply (Db.setMovedTo_grows target id db).nextId_le
      | insertRemotePost post =>
          simp only [Sql.exec, Db.insertRemotePost]
          split
          · apply Nat.le_refl
          · split
            · rename_i core hcore
              simp [(Core.of_insertPost hcore).2.1]
            · apply Nat.le_refl
      | insertLocalPost post =>
          simp only [Sql.exec, Db.insertLocalPost]
          split
          · rename_i core hcore
            simp [(Core.of_insertPost hcore).2.1]
          · apply Nat.le_refl
      | _ => first | apply Nat.le_refl | exact absurd rfl hread
  | _ => exact absurd rfl hread

end Federation
