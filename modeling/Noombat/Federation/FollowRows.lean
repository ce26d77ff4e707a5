import Noombat.Federation.HandlerEffects
import Noombat.Federation.Refresh

/-!
# The follows after a request

What a request can do to the follows, said once: a follow that is there after a request was
there before, between the same actors and with the same identifier, or it is the one that the
request inserts.  Local actors are there as long as the database.
-/

namespace Federation

open Fallible Program

/-- The statements that may change the follows. -/
def Sql.writesFollows : Sql → Bool
  | insertFollow _ | acceptFollow _ _ | deleteFollow _ _ | deleteFollowByApId _ _ _
  | deleteRemoteActor _ | deletePost _ | deletePostById _ => true
  | _ => false

theorem Sql.exec_follows_eq {s : Sql} (h : s.writesFollows = false) (pick : Nat) (db : Db) :
  (s.exec pick db).2.follows = db.follows
  := by
  cases s with
  | upsertRemoteActor remote => exact (Db.upsertRemoteActor_refreshes remote db).follows_eq
  | setMovedTo => simp only [exec, Db.setMovedTo]; split <;> rfl
  | insertTombstone => simp only [exec, Db.insertTombstone]; split <;> rfl
  | insertRemotePost =>
      simp only [exec, Db.insertRemotePost]
      split
      · rfl
      · split <;> rfl
  | insertLocalPost => simp only [exec, Db.insertLocalPost]; split <;> rfl
  | insertBlock => simp only [exec, Db.insertBlock]; split_ifs <;> rfl
  | insertReaction kind =>
      simp only [exec, Db.insertReaction]
      split_ifs <;> cases kind <;> rfl
  | deleteReaction kind => cases kind <;> rfl
  | upsertHashtags => simp only [exec, Db.upsertHashtags]; split <;> rfl
  | linkHashtags => simp only [exec, Db.linkHashtags]; split <;> rfl
  | enqueueDelivery => simp only [exec, Db.enqueueDelivery]; split <;> rfl
  | enqueueUpsert => simp only [exec, Db.enqueueUpsert]; split <;> rfl
  | enqueueMediaFetch => simp only [exec, Db.enqueueMediaFetch]; split_ifs <;> rfl
  | insertReport => simp only [exec, Db.insertReport]; split <;> rfl
  | _ => first | rfl | cases h

/-- Two rows are of the same actors, and have the same identifier. -/
def Follow.Same (f f' : Follow) : Prop :=
  f'.followerId = f.followerId ∧ f'.followingId = f.followingId ∧ f'.apId = f.apId

theorem Follow.Same.refl (f : Follow) :
  f.Same f
  := ⟨rfl, rfl, rfl⟩

theorem Sql.exec_follows {s : Sql} {pick : Nat} {db : Db} {f' : Follow}
    (h : f' ∈ (s.exec pick db).2.follows) :
  s = .insertFollow f' ∨ ∃ f ∈ db.follows, f.Same f'
  := by
  by_cases hwrites : s.writesFollows = false
  · rw [exec_follows_eq hwrites] at h
    exact .inr ⟨f', h, .refl f'⟩
  cases s with
  | insertFollow follow =>
      simp only [exec, Db.insertFollow] at h
      split_ifs at h
      · exact .inr ⟨f', h, .refl f'⟩
      · obtain rfl | h := List.mem_cons.mp h
        · exact .inl rfl
        · exact .inr ⟨f', h, .refl f'⟩
      · exact .inr ⟨f', h, .refl f'⟩
  | acceptFollow followerId followingId =>
      obtain ⟨f, hf, rfl⟩ := List.mem_map.mp h
      refine .inr ⟨f, hf, ?_⟩
      split
      · exact ⟨rfl, rfl, rfl⟩
      · exact .refl f
  | deleteFollow => exact .inr ⟨f', List.mem_of_mem_filter h, .refl f'⟩
  | deleteFollowByApId => exact .inr ⟨f', List.mem_of_mem_filter h, .refl f'⟩
  | deleteRemoteActor => exact .inr ⟨f', List.mem_of_mem_filter h, .refl f'⟩
  | deletePost => exact .inr ⟨f', List.mem_of_mem_filter h, .refl f'⟩
  | deletePostById => exact .inr ⟨f', List.mem_of_mem_filter h, .refl f'⟩
  | _ => exact absurd rfl hwrites

/-- A follow that is there after a request was there before, or is inserted. -/
theorem exec_follows {q : FedRequest} {c : fedWorld.Choice q} {db : Db} {f' : Follow}
    (h : f' ∈ (fedWorld.exec q c db).2.follows) :
  q = .sql (.insertFollow f') ∨ ∃ f ∈ db.follows, f.Same f'
  := by
  cases q with
  | sql s =>
      simp only [fedWorld] at h
      split at h
      · exact .inr ⟨f', h, .refl f'⟩
      · obtain rfl | hold := Sql.exec_follows h
        · exact .inl rfl
        · exact .inr hold
  | _ => exact .inr ⟨f', h, .refl f'⟩

/-- Two follows are of different pairs of actors. -/
def Follow.Apart (f f' : Follow) : Prop :=
  f.followerId ≠ f'.followerId ∨ f.followingId ≠ f'.followingId

instance : DecidableRel Follow.Apart :=
  fun f f' => inferInstanceAs
    (Decidable (f.followerId ≠ f'.followerId ∨ f.followingId ≠ f'.followingId))

instance : Std.Symm Follow.Apart where
  symm _ _ h := h.imp Ne.symm Ne.symm

/-- A local actor is there after a request, too. -/
theorem exec_locals {q : FedRequest} {c : fedWorld.Choice q} {db : Db} {a : Actor}
    (ha : a ∈ db.actors) (hlocal : a.isLocal = true) :
  ∃ a' ∈ (fedWorld.exec q c db).2.actors, a'.id = a.id ∧ a'.isLocal = true
  := by
  by_cases hread : q.writesCore = false
  · rw [exec_toCore hread]
    exact ⟨a, ha, rfl, hlocal⟩
  cases q with
  | sql s =>
      simp only [fedWorld]
      split
      · exact ⟨a, ha, rfl, hlocal⟩
      cases s with
      | upsertRemoteActor remote =>
          have hlocals := (Db.upsertRemoteActor_refreshes remote db).locals a hlocal
          exact ⟨a, hlocals.mpr ha, rfl, hlocal⟩
      | setMovedTo target id =>
          simp only [Sql.exec, Db.setMovedTo]
          split
          · rename_i core hcore
            refine ⟨_, ((Core.of_updateActors hcore).2.2 _).mpr ⟨a, ha, rfl⟩, ?_⟩
            split
            · exact ⟨rfl, hlocal⟩
            · exact ⟨rfl, hlocal⟩
          · exact ⟨a, ha, rfl, hlocal⟩
      | deleteRemoteActor id =>
          exact ⟨a, Core.mem_deleteActors.mpr ⟨ha, by simp [hlocal]⟩, rfl, hlocal⟩
      | insertRemotePost post =>
          simp only [Sql.exec, Db.insertRemotePost]
          split
          · exact ⟨a, ha, rfl, hlocal⟩
          · split
            · rename_i core hcore
              refine ⟨a, ?_, rfl, hlocal⟩
              rw [(Core.of_insertPost hcore).1]
              exact ha
            · exact ⟨a, ha, rfl, hlocal⟩
      | insertLocalPost post =>
          simp only [Sql.exec, Db.insertLocalPost]
          split
          · rename_i core hcore
            refine ⟨a, ?_, rfl, hlocal⟩
            rw [(Core.of_insertPost hcore).1]
            exact ha
          · exact ⟨a, ha, rfl, hlocal⟩
      | _ => first | exact ⟨a, ha, rfl, hlocal⟩ | exact absurd rfl hread
  | _ => exact absurd rfl hread

/-! ### Follows with an identifier -/

/-- The follows that are stored with an identifier are of local actors. -/
def Db.NamedFollowsLocal (db : Db) : Prop :=
  ∀ f ∈ db.follows, f.apId = none ∨ ∃ a ∈ db.actors, a.id = f.followingId ∧ a.isLocal = true

/-- The request inserts no follow with an identifier. -/
def FedRequest.NamesNoFollow (q : FedRequest) : Prop :=
  ∀ follow, q = .sql (.insertFollow follow) → follow.apId = none

theorem FedRequest.namesNoFollow_of_not_insertsFollow {q : FedRequest}
    (h : q.insertsFollow = false) :
  q.NamesNoFollow
  := by
  rintro follow rfl
  cases h

/-- A follow that is inserted has no identifier, or is of a local actor. -/
theorem Db.NamedFollowsLocal.exec {q : FedRequest} {c : fedWorld.Choice q} {db : Db}
    (h : db.NamedFollowsLocal)
    (hq : ∀ follow, q = .sql (.insertFollow follow) →
      follow.apId = none ∨ ∃ a ∈ db.actors, a.id = follow.followingId ∧ a.isLocal = true) :
  (fedWorld.exec q c db).2.NamedFollowsLocal
  := by
  intro f' hf'
  have hlater : ∀ id, (∃ a ∈ db.actors, a.id = id ∧ a.isLocal = true) →
      ∃ a ∈ (fedWorld.exec q c db).2.actors, a.id = id ∧ a.isLocal = true := by
    rintro id ⟨a, ha, rfl, hlocal⟩
    exact exec_locals ha hlocal
  obtain hinserted | ⟨f, hf, hsame⟩ := exec_follows hf'
  · exact (hq f' hinserted).imp_right (hlater _)
  · rw [hsame.2.1, hsame.2.2]
    exact (h f hf).imp_right (hlater _)

section Handlers

variable {C : Condition fedWorld} (ext : External)

theorem wp_namedFollowsLocal {α : Type} {p : Program Fed α}
    (h : Every FedRequest.NamesNoFollow p) {db : Db} (hdb : db.NamedFollowsLocal) :
  wp fedWorld C (fun _ db' => db'.NamedFollowsLocal) p db
  := by
  apply Every.wp_inv Db.NamedFollowsLocal _ h hdb
  intro q hq c db' _ hdb'
  apply hdb'.exec
  intro follow hfollow
  exact .inl (hq follow hfollow)

theorem permits_namesNoFollow :
  PermitsPosts FedRequest.NamesNoFollow where
  read q h := by
    rw [FedRequest.isMinor, Bool.and_eq_true] at h
    apply FedRequest.namesNoFollow_of_not_insertsFollow
    simpa using h.2
  upsert _ := FedRequest.namesNoFollow_of_not_insertsFollow rfl
  moved _ _ := FedRequest.namesNoFollow_of_not_insertsFollow rfl
  insert _ := FedRequest.namesNoFollow_of_not_insertsFollow rfl
  record _ _ _ := FedRequest.namesNoFollow_of_not_insertsFollow rfl
  canonical _ _ := FedRequest.namesNoFollow_of_not_insertsFollow rfl
  update _ _ _ := FedRequest.namesNoFollow_of_not_insertsFollow rfl
  delete _ := FedRequest.namesNoFollow_of_not_insertsFollow rfl
  deleteActor _ := FedRequest.namesNoFollow_of_not_insertsFollow rfl

/-- An inbound follow is stored with its identifier, and is of the local actor it names. -/
theorem wp_handleFollow_named (activity : Activity) {db : Db} (hdb : db.NamedFollowsLocal) :
  wp fedWorld C (fun _ db' => db'.NamedFollowsLocal) (handleFollow ext activity).run db
  := by
  have hquiet := permits_namesNoFollow.toPermits
  apply wp_run_bind_inv (wp_namedFollowsLocal (every_okOr _ _) hdb)
  intro targetUri db₁ hdb₁
  apply wp_run_bind_inv (wp_namedFollowsLocal (every_okOr _ _) hdb₁)
  intro targetUsername db₂ hdb₂
  apply wp_run_bind_inv
    (wp_namedFollowsLocal (every_resolveActor ext hquiet.consult hquiet.upsert _) hdb₂)
  intro remoteActor db₃ hdb₃
  rw [wp_run_bind]
  apply wp_mono _ (wp_findLocalByUsername targetUsername db₃)
  rintro (e | localActor) db₄ hfound
  · rw [onExcept_error] at hfound ⊢
    rw [hfound]
    exact hdb₃
  · obtain ⟨rfl, a, ha, hlocal, hid, _⟩ := hfound
    rw [onExcept_ok]
    apply wp_run_bind_inv
    · apply (wp_request (FedRequest.sql (.insertFollow _)) _ _).mpr
      intro c _
      apply hdb₃.exec
      rintro follow hfollow
      cases hfollow
      exact .inr ⟨a, ha, hid, hlocal⟩
    · intro _ db₅ hdb₅
      split
      · apply wp_namedFollowsLocal _ hdb₅
        apply every_run_bind ((every_run_ask _).mpr (hquiet.read _ rfl))
        intro now
        apply every_sql (hquiet.read _ rfl)
      · rw [wp_run_pure]
        exact hdb₅

theorem wp_processActivity_named (config : Config) (verifiedActor : String) (document : Json)
    (activity : Activity) {db : Db} (hdb : db.NamedFollowsLocal) :
  wp fedWorld C (fun _ db' => db'.NamedFollowsLocal)
    (processActivity ext config verifiedActor document activity).run db
  := by
  have hdispatch : ∀ db₁ : Db, db₁.NamedFollowsLocal →
      wp fedWorld C (fun _ db' => db'.NamedFollowsLocal)
        (dispatch ext config activity).run db₁ := by
    intro db₁ hdb₁
    by_cases htype : activity.activityType = "Follow"
    · rw [dispatch, htype]
      apply wp_handleFollow_named ext activity hdb₁
    · apply wp_namedFollowsLocal _ hdb₁
      apply every_dispatch ext permits_namesNoFollow
      · intro hfollow
        exact absurd hfollow htype
      · intro _
        apply every_handleAnnounce ext permits_namesNoFollow
        intro apId
        exact FedRequest.namesNoFollow_of_not_insertsFollow rfl
  rw [processActivity]
  split
  · apply wp_run_bind_inv (wp_namedFollowsLocal
      (every_verifyInboundProof ext permits_namesNoFollow.consult permits_namesNoFollow.upsert _ _)
      hdb)
    intro verdict db₁ hdb₁
    split
    · rw [wp_run_throw]
      exact hdb₁
    · exact hdispatch db₁ hdb₁
    · exact hdispatch db₁ hdb₁
  · rw [wp_run_throw]
    exact hdb

end Handlers

end Federation
