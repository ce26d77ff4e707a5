import Noombat.Jobs.Applications

/-!
# What a grant admits

A grant is redeemed within its budget, only while it stands and only for its audience; a
grant that was revoked stays so.  Every redemption of a grant is logged once, provided that
the statements that follow the charge do not fail.
-/

namespace Jobs

open Federation (Uuid DateTime NoombatError)
open Program

abbrev Event : Type :=
  Interface.Event Granting Call

abbrev Reading : Type :=
  Pool Granting Call Db

/-! ### Exchanges -/

/-- The grant that an exchange mints. -/
def minted : Granting.Exchange → Option NewGrant
  | ⟨.sql (.insertApplication _ grant), .ok _⟩ => some grant
  | _ => none

/-- The grant that an exchange charges, and the document that it is charged for. -/
def charge : Granting.Exchange → Option (Document × Uuid)
  | ⟨.sql (.spend document _ _), .ok (some (id, _))⟩ => some (document, id)
  | _ => none

/-- The row that an exchange adds to the log. -/
def logged : Granting.Exchange → Option Access
  | ⟨.sql (.insertAccess access), .ok _⟩ => some access
  | _ => none

/-- How a redemption is answered. -/
def answered : Granting.Exchange → Option (Except NoombatError Redeemed)
  | ⟨.respond (.redeemed r), _⟩ => some r
  | _ => none

/-- The hash of the token by which an exchange looks for a grant, and the grant that it
finds, with its application. -/
def found : Granting.Exchange → Option (String × Option (Uuid × Uuid))
  | ⟨.sql (.spend _ hash _), .ok (some r)⟩ => some (hash, some r)
  | ⟨.sql (.selectGrant hash), .ok r⟩ => some (hash, r)
  | _ => none

/-- A statement that fails neither charges nor logs nor finds anything. -/
theorem charge_error (st : JobSql) (e : NoombatError) :
  charge ⟨.sql st, .error e⟩ = none
  := by
  cases st <;> rfl

theorem logged_error (st : JobSql) (e : NoombatError) :
  logged ⟨.sql st, .error e⟩ = none
  := by
  cases st <;> rfl

theorem found_error (st : JobSql) (e : NoombatError) :
  found ⟨.sql st, .error e⟩ = none
  := by
  cases st <;> rfl

/-- How often a grant has been charged for a document. -/
def charges (document : Document) (id : Uuid) (h : Granting.History Call) : Nat :=
  h.countP fun e => charge e.exchange == some (document, id)

/-- A redemption of a grant for a document succeeds. -/
def succeeds (document : Document) (id : Uuid) (e : Event) : Bool :=
  match e.task, answered e.exchange with
  | .redeem _ _ document', some (.ok r) => document' == document && r.grantId == id
  | _, _ => false

/-- How many redemptions of a grant for a document have succeeded. -/
def successes (document : Document) (id : Uuid) (h : Granting.History Call) : Nat :=
  h.countP (succeeds document id)

/-! ### What the calls ask -/

/-- The exchanges of a redemption, the latest first, and how it is answered after them. -/
inductive Redeems (hash origin : String) (document : Document) :
    List Granting.Exchange → Except NoombatError Redeemed → Prop where
  | failed (e : NoombatError) :
      Redeems hash origin document [⟨.sql (.spend document hash origin), .error e⟩] (.error e)
  | unread (grantId applicationId : Uuid) (e : NoombatError) :
      Redeems hash origin document
        [⟨.sql (.selectApplicant applicationId), .error e⟩,
          ⟨.sql (.spend document hash origin), .ok (some (grantId, applicationId))⟩]
        (.error e)
  | unlogged (grantId applicationId applicantId : Uuid) (e : NoombatError) :
      Redeems hash origin document
        [⟨.sql (.insertAccess (access applicationId (some grantId) none "disclosed" none)),
            .error e⟩,
          ⟨.sql (.selectApplicant applicationId), .ok applicantId⟩,
          ⟨.sql (.spend document hash origin), .ok (some (grantId, applicationId))⟩]
        (.error e)
  | disclosed (grantId applicationId applicantId : Uuid) :
      Redeems hash origin document
        [⟨.sql (.insertAccess (access applicationId (some grantId) none "disclosed" none)),
            .ok ()⟩,
          ⟨.sql (.selectApplicant applicationId), .ok applicantId⟩,
          ⟨.sql (.spend document hash origin), .ok (some (grantId, applicationId))⟩]
        (.ok ⟨grantId, applicationId, applicantId⟩)
  | unknown (r : Except NoombatError (Option (Uuid × Uuid))) (h : ∀ grant, r ≠ .ok (some grant)) :
      Redeems hash origin document
        [⟨.sql (.selectGrant hash), r⟩, ⟨.sql (.spend document hash origin), .ok none⟩]
        (.error .forbidden)
  | denied (grantId applicationId : Uuid) (r : Except NoombatError Unit) :
      Redeems hash origin document
        [⟨.sql (.insertAccess (access applicationId (some grantId) none "denied" none)), r⟩,
          ⟨.sql (.selectGrant hash), .ok (some (grantId, applicationId))⟩,
          ⟨.sql (.spend document hash origin), .ok none⟩]
        (.error .forbidden)

/-- An exchange finds a grant, of an application. -/
def Finds (grantId applicationId : Uuid) (x : Granting.Exchange) : Prop :=
  ∃ hash, found x = some (hash, some (grantId, applicationId))

/-- What a call makes a request for, after the exchanges it has had. -/
def Allowed (hashToken : String → String) (t : Call) (l : List Granting.Exchange) :
    JobRequest → Prop
  | .sql (.spend document hash origin) =>
      ∃ token, t = .redeem token origin document ∧ hash = hashToken token
  | .sql (.insertApplication application grant) =>
      grant.jobApplicationId = application.id ∧ grant.documentUsesRemaining = DOCUMENT_USES ∧
        grant.cvUsesRemaining = if application.includeCv then CV_USES else 0
  | .sql (.selectApplicant applicationId) => ∃ grantId, ∃ x ∈ l, Finds grantId applicationId x
  | .sql (.insertAccess row) =>
      ∃ grantId applicationId outcome, (∃ x ∈ l, Finds grantId applicationId x) ∧
        row = access applicationId (some grantId) none outcome none
  | .respond (.redeemed r) =>
      ∃ token origin document, t = .redeem token origin document ∧
        Redeems (hashToken token) origin document l r
  | _ => True

/-- A call makes no request once it has been answered. -/
def Asked (hashToken : String → String) (t : Call) (l : List Granting.Exchange)
    (q : JobRequest) : Prop :=
  (∀ x ∈ l, answered x = none) ∧ Allowed hashToken t l q

theorem Redeems.unanswered {hash origin : String} {document : Document}
    {l : List Granting.Exchange} {r : Except NoombatError Redeemed}
    (h : Redeems hash origin document l r) :
  ∀ x ∈ l, answered x = none
  := by
  cases h <;> simp [answered]

theorem asks_redeem (hashToken : String → String) (token origin : String) (document : Document) :
  Asks (Asked hashToken (.redeem token origin document))
    (fun r l => Redeems (hashToken token) origin document l r)
    (redeem hashToken token origin document).run []
  := by
  rw [redeem]
  apply (Fallible.asks_run_bind _ _ _ _).mpr
  apply (Fallible.asks_run_ask _ _ _).mpr
  refine ⟨⟨by simp, token, rfl, rfl⟩, ?_⟩
  rintro (e | _ | ⟨grantId, applicationId⟩)
  · exact .failed e
  · -- nothing was charged: the refusal is logged if the grant can be identified
    apply (Fallible.asks_run_bind _ _ _ _).mpr
    apply (Fallible.asks_run_attempt _ _ _).mpr
    apply (Fallible.asks_run_ask _ _ _).mpr
    refine ⟨⟨by simp [answered], trivial⟩, ?_⟩
    rintro (e | _ | ⟨grantId, applicationId⟩)
    · exact .unknown _ (by simp)
    · exact .unknown _ (by simp)
    · apply (Fallible.asks_run_bind _ _ _ _).mpr
      apply (Fallible.asks_run_attempt _ _ _).mpr
      apply (Fallible.asks_run_ask _ _ _).mpr
      refine ⟨⟨by simp [answered], ?_⟩, ?_⟩
      · exact ⟨grantId, applicationId, "denied", ⟨_, List.mem_cons_self, _, rfl⟩, rfl⟩
      · intro r
        exact .denied grantId applicationId r
  · apply (Fallible.asks_run_bind _ _ _ _).mpr
    apply (Fallible.asks_run_ask _ _ _).mpr
    refine ⟨⟨by simp [answered], grantId, _, List.mem_cons_self, _, rfl⟩, ?_⟩
    rintro (e | applicantId)
    · exact .unread grantId applicationId e
    · apply (Fallible.asks_run_bind _ _ _ _).mpr
      apply (Fallible.asks_run_ask _ _ _).mpr
      refine ⟨⟨by simp [answered], ?_⟩, ?_⟩
      · exact ⟨grantId, applicationId, "disclosed",
          ⟨_, List.mem_cons_of_mem _ List.mem_cons_self, _, rfl⟩, rfl⟩
      · rintro (e | _)
        · exact .unlogged grantId applicationId applicantId e
        · exact .disclosed grantId applicationId applicantId

/-- A request that is neither for a redemption nor an answer, and mints a grant with the
budget that all grants are minted with. -/
def Applying : JobRequest → Prop
  | .sql (.insertApplication application grant) =>
      grant.jobApplicationId = application.id ∧ grant.documentUsesRemaining = DOCUMENT_USES ∧
        grant.cvUsesRemaining = if application.includeCv then CV_USES else 0
  | .sql (.spend _ _ _) | .sql (.selectApplicant _) | .sql (.insertAccess _) => False
  | .respond _ => False
  | _ => True

theorem every_apply (hashToken : String → String) (applicantId jobId : Uuid) (domain : String)
    (params : NewApplication) (cvSnapshot : Option Bytes) :
  Every Applying (apply hashToken applicantId jobId domain params cvSnapshot).run
  := by
  have hgetJob : Every Applying (getJob jobId).run := by
    apply Fallible.every_run_bind ((Fallible.every_run_ask _).mpr trivial)
    rintro (_ | job)
    · apply Fallible.every_run_throw
    · apply Fallible.every_run_pure
  have hrender : Every Applying (renderCoverLetter params.coverLetterMd).run := by
    rw [renderCoverLetter.eq_def]
    split
    · split
      · apply Fallible.every_run_pure
      · apply Fallible.every_run_bind ((Fallible.every_run_ask _).mpr trivial)
        intro html
        apply Fallible.every_run_pure
    · apply Fallible.every_run_pure
  rw [apply]
  apply Fallible.every_run_bind hgetJob
  intro job
  split
  · apply Fallible.every_run_throw
  · split
    · apply Fallible.every_run_throw
    · apply Fallible.every_run_bind ((Fallible.every_run_ask _).mpr trivial)
      rintro (_ | ⟨organisationApId, organisationName⟩)
      · apply Fallible.every_run_throw
      · apply Fallible.every_run_bind (Fallible.every_run_ofExcept _)
        intro audienceOrigin
        apply Fallible.every_run_bind hrender
        intro coverLetterHtml
        apply Fallible.every_run_bind ((Fallible.every_run_ask _).mpr trivial)
        intro id
        apply Fallible.every_run_bind ((Fallible.every_run_ask _).mpr trivial)
        intro token
        apply Fallible.every_run_bind ((Fallible.every_run_ask _).mpr trivial)
        intro now
        apply Fallible.every_run_bind ((Fallible.every_run_ask _).mpr ⟨rfl, rfl, rfl⟩)
        intro _
        apply Fallible.every_run_pure

/-- A call that is not a redemption, and then its answer. -/
theorem asks_other {hashToken : String → String} {t : Call} {p : Program Granting α}
    (hp : Every Applying p) (f : α → Response) (hf : ∀ a r, f a ≠ .redeemed r) :
  Asks (Asked hashToken t) (fun _ _ => True) (p >>= fun a => respond (f a)) []
  := by
  apply (asks_bind _ _ _ _).mpr
  apply Asks.mono _ (Every.asks (fun l => ∀ x ∈ l, answered x = none) _ hp (by simp))
  · intro a l hl
    refine ⟨⟨hl, ?_⟩, fun _ => trivial⟩
    cases hresponse : f a with
    | redeemed r => exact absurd hresponse (hf a r)
    | _ => trivial
  · intro q l hq hl
    refine ⟨⟨hl, ?_⟩, ?_⟩
    · cases q with
      | sql st =>
          cases st with
          | insertApplication application grant => exact hq
          | spend document hash origin => exact hq.elim
          | selectApplicant id => exact hq.elim
          | insertAccess row => exact hq.elim
          | _ => trivial
      | respond r => exact hq.elim
      | _ => trivial
    · intro r x hx
      rcases List.mem_cons.mp hx with rfl | hx
      · cases q with
        | respond r => exact hq.elim
        | _ => rfl
      · apply hl x hx

theorem asks_program (hashToken : String → String) (t : Call) :
  Asks (Asked hashToken t) (fun _ _ => True) (t.program hashToken) []
  := by
  cases t with
  | apply applicantId jobId domain params cvSnapshot =>
      apply asks_other (every_apply _ _ _ _ _ _)
      simp
  | redeem token origin document =>
      rw [Call.program]
      apply (asks_bind _ _ _ _).mpr
      apply Asks.mono _ (asks_redeem hashToken token origin document)
      intro r l hl
      exact ⟨⟨hl.unanswered, token, origin, document, rfl, hl⟩, fun _ => trivial⟩
  | revokeForApplication applicantId jobApplicationId reason =>
      have hp : Every Applying (Jobs.revokeForApplication applicantId jobApplicationId reason).run :=
        (Fallible.every_run_ask _).mpr trivial
      apply asks_other hp
      simp
  | revokeGrantsForMigration sourceActorId =>
      have hp : Every Applying (Jobs.revokeGrantsForMigration sourceActorId).run :=
        (Fallible.every_run_ask _).mpr trivial
      apply asks_other hp
      simp

/-! ### What a request does to the database -/

section Exec

variable {db : Db} {g : Grant}

/-- An exchange that charges a grant has found it. -/
theorem finds_of_charge {x : Granting.Exchange} {document : Document} {id : Uuid}
    (h : charge x = some (document, id)) :
  ∃ applicationId, Finds id applicationId x
  := by
  unfold charge at h
  split at h
  · rename_i document' hash origin id' applicationId
    obtain ⟨rfl, rfl⟩ := Prod.mk.inj (Option.some.inj h)
    exact ⟨applicationId, hash, rfl⟩
  · cases h

/-- What becomes of a grant when an exchange is made at a time: it stays as it is, or it is
live and the exchange charges it for a document, or it is revoked. -/
inductive Grant.Moves (now : DateTime) (x : Granting.Exchange) : Grant → Grant → Prop where
  | same (g : Grant) (h : ∀ document, charge x ≠ some (document, g.id)) : Moves now x g g
  | charged (g : Grant) (document : Document)
      (hrequest : x.request = .sql (.spend document g.tokenHash g.audienceOrigin))
      (hlive : g.isLive document g.tokenHash g.audienceOrigin now = true)
      (hcharge : charge x = some (document, g.id)) : Moves now x g (g.charged document)
  | revoked (g : Grant) (reason : String) (h : ∀ document, charge x ≠ some (document, g.id))
      (hactive : g.revocation = none ∨ g.state = .active) : Moves now x g (g.revoke now reason)

theorem Db.eq_of_tokenHash {g' : Grant} (hg : g ∈ db.grants) (hg' : g' ∈ db.grants)
    (h : g.tokenHash = g'.tokenHash) :
  g = g'
  := Table.eq_of_not_apart hg hg' fun hapart => hapart.2 h

theorem Db.eq_of_id {g' : Grant} (hg : g ∈ db.grants) (hg' : g' ∈ db.grants)
    (h : g.id = g'.id) :
  g = g'
  := Table.eq_of_not_apart hg hg' fun hapart => hapart.1 h

theorem Db.find_of_mem (hg : g ∈ db.grants) :
  db.grants.find (·.tokenHash == g.tokenHash) = some g
  := by
  have hsome : (db.grants.find (·.tokenHash == g.tokenHash)).isSome :=
    Table.find_isSome_iff.mpr ⟨g, hg, beq_self_eq_true g.tokenHash⟩
  obtain ⟨g', hfind⟩ := Option.isSome_iff_exists.mp hsome
  have hhash := Table.satisfies_of_find hfind
  rw [beq_iff_eq] at hhash
  rw [hfind, Db.eq_of_tokenHash (Table.mem_of_find hfind) hg hhash]

theorem Grant.of_isLive {document : Document} {hash origin : String} {now : DateTime}
    (h : g.isLive document hash origin now = true) :
  g.tokenHash = hash ∧ g.audienceOrigin = origin ∧ g.revocation = none ∧ now < g.expiresAt ∧
    0 < g.usesRemaining document
  := by
  simpa [Grant.isLive, and_assoc] using h

/-- A charge is for the grant that is found, and for no other. -/
theorem Db.spend_moves {document : Document} {hash origin : String} (hg : g ∈ db.grants) :
  Grant.Moves db.clock ⟨.sql (.spend document hash origin), (db.spend document hash origin).1⟩ g
    (if g.isLive document hash origin db.clock then g.charged document else g)
  := by
  split
  · rename_i hlive
    obtain ⟨rfl, rfl, _⟩ := Grant.of_isLive hlive
    obtain ⟨g', hfind⟩ := Option.isSome_iff_exists.mp (Table.find_isSome_iff.mpr ⟨g, hg, hlive⟩)
    have hhash := (Grant.of_isLive (Table.satisfies_of_find hfind)).1
    obtain rfl := Db.eq_of_tokenHash (Table.mem_of_find hfind) hg hhash
    apply Grant.Moves.charged _ _ rfl hlive
    simp only [spend, hfind]
    rfl
  · rename_i hnot
    apply Grant.Moves.same
    intro document' hcharge
    simp only [spend, charge] at hcharge
    split at hcharge
    · rename_i document₁ hash₁ origin₁ id application hx
      obtain ⟨hrequest, hanswer⟩ := Interface.Exchange.mk.inj hx
      obtain ⟨rfl, rfl, rfl⟩ := JobSql.spend.inj (JobRequest.sql.inj hrequest)
      obtain ⟨g', hfind, hid⟩ := Option.map_eq_some_iff.mp (Except.ok.inj (eq_of_heq hanswer))
      obtain ⟨rfl, _⟩ := Prod.mk.inj hid
      have hid' := (Prod.mk.inj (Option.some.inj hcharge)).2
      obtain rfl := Db.eq_of_id (Table.mem_of_find hfind) hg hid'
      exact hnot (Table.satisfies_of_find hfind)
    · cases hcharge

theorem Db.revokeWhere_moves {p : Grant → Bool} {reason : String} {x : Granting.Exchange}
    (hx : ∀ document, charge x ≠ some (document, g.id))
    (hp : p g = true → g.revocation = none ∨ g.state = .active) :
  Grant.Moves db.clock x g (if p g then g.revoke db.clock reason else g)
  := by
  split
  · rename_i h
    apply Grant.Moves.revoked g reason hx (hp h)
  · apply Grant.Moves.same g hx

/-- The grants after the grants that satisfy `p` have been revoked, if they have. -/
theorem Db.revokeWhere_rows (p : Grant → Bool) (reason : String) :
  (db.revokeWhere p reason).2.grants.rows =
      db.grants.rows.map (fun g => if p g then g.revoke db.clock reason else g) ∨
    (db.revokeWhere p reason).2.grants.rows = db.grants.rows
  := by
  rw [revokeWhere]
  split
  · left
    rfl
  · right
    rfl

theorem Db.revokeWhere_clock (p : Grant → Bool) (reason : String) :
  (db.revokeWhere p reason).2.clock = db.clock
  := by
  rw [revokeWhere]
  split
  · rfl
  · rfl

/-- The grants of a database are those of another, moved on by an exchange, and perhaps one
that the exchange mints for an application. -/
structure Db.Moves (x : Granting.Exchange) (db db' : Db) : Prop where
  kept : ∀ g ∈ db.grants, ∃ g' ∈ db'.grants, g.Moves db'.clock x g'
  source : ∀ g' ∈ db'.grants, (∃ g ∈ db.grants, g.Moves db'.clock x g') ∨
    ∃ application grant id, x.request = .sql (.insertApplication application grant) ∧
      minted x = some grant ∧ db'.hasApplication application.id = true ∧
      g' = Db.newGrant grant id ∧ ∀ g ∈ db.grants, g.id ≠ id

theorem Db.moves_of_map {x : Granting.Exchange} {db' : Db} {f : Grant → Grant}
    (hf : ∀ g ∈ db.grants, g.Moves db'.clock x (f g))
    (hrows : db'.grants.rows = db.grants.rows.map f) :
  db.Moves x db'
  := by
  constructor
  · intro g hg
    have hmem : f g ∈ db'.grants.rows := hrows ▸ List.mem_map_of_mem hg
    exact ⟨f g, hmem, hf g hg⟩
  · intro g' hg'
    obtain ⟨g, hg, rfl⟩ := List.mem_map.mp (hrows ▸ Table.mem_rows.mpr hg')
    exact .inl ⟨g, hg, hf g hg⟩

/-- An exchange that charges nothing and changes no grant. -/
theorem Db.moves_of_rows_eq {x : Granting.Exchange} {db' : Db}
    (hrows : db'.grants.rows = db.grants.rows) (hcharge : charge x = none) :
  db.Moves x db'
  := by
  apply Db.moves_of_map (f := id)
  · intro g _
    apply Grant.Moves.same
    simp [hcharge]
  · rw [hrows, List.map_id]

theorem Db.revokeWhere_movesAll {p : Grant → Bool} {reason : String} {x : Granting.Exchange}
    (hx : charge x = none) (hp : ∀ g, p g = true → g.revocation = none ∨ g.state = .active) :
  db.Moves x (db.revokeWhere p reason).2
  := by
  obtain hrows | hrows : (db.revokeWhere p reason).2.grants.rows =
      db.grants.rows.map (fun g => if p g then g.revoke db.clock reason else g) ∨
        (db.revokeWhere p reason).2.grants.rows = db.grants.rows := Db.revokeWhere_rows p reason
  · apply Db.moves_of_map _ hrows
    intro g _
    rw [Db.revokeWhere_clock]
    apply Db.revokeWhere_moves (by simp [hx]) (hp g)
  · apply Db.moves_of_rows_eq hrows hx

theorem Db.insertApplication_moves (application : ApplicationRow) (grant : NewGrant) (id : Uuid) :
  db.Moves
    ⟨.sql (.insertApplication application grant), (db.insertApplication application grant id).1⟩
    (db.insertApplication application grant id).2
  := by
  rw [insertApplication]
  split
  · exact Db.moves_of_rows_eq rfl rfl
  · rename_i applications happlications
    split
    · split
      · split
        · exact Db.moves_of_rows_eq rfl rfl
        · rename_i grants hgrants
          constructor
          · intro g hg
            refine ⟨g, (Table.mem_of_insert hgrants).mpr (.inr hg), Grant.Moves.same g ?_⟩
            simp [charge]
          · intro g' hg'
            rcases (Table.mem_of_insert hgrants).mp hg' with rfl | hg
            · right
              refine ⟨application, grant, id, rfl, rfl, ?_, rfl, ?_⟩
              · apply List.any_eq_true.mpr
                exact ⟨application, (Table.mem_of_insert happlications).mpr (.inl rfl), by simp⟩
              · intro g hg heq
                exact (Table.apart_of_insert hgrants hg).1 heq.symm
            · exact .inl ⟨g', hg, Grant.Moves.same g' (by simp [charge])⟩
      · exact Db.moves_of_rows_eq rfl rfl
    · exact Db.moves_of_rows_eq rfl rfl

/-- What a statement that takes effect does to the grants. -/
theorem exec_moves (id : Uuid) (st : JobSql) (db : Db) :
  db.Moves ⟨.sql st, (st.exec id db).1⟩ (st.exec id db).2
  := by
  cases st with
  | insertApplication application grant => apply Db.insertApplication_moves
  | spend document hash origin =>
      exact Db.moves_of_map (fun g hg => Db.spend_moves hg) rfl
  | selectApplicant applicationId =>
      rw [JobSql.exec]
      split
      · exact Db.moves_of_rows_eq rfl rfl
      · exact Db.moves_of_rows_eq rfl rfl
  | insertAccess row =>
      apply Db.moves_of_rows_eq _ rfl
      rw [JobSql.exec, Db.insertAccess]
      split
      · split
        · rfl
        · rfl
      · rfl
  | revokeForApplication applicantId jobApplicationId reason =>
      apply Db.revokeWhere_movesAll rfl
      intro g hg
      simp only [Bool.and_eq_true, Option.isNone_iff_eq_none] at hg
      exact .inl hg.2
  | revokeForMigration sourceActorId =>
      apply Db.revokeWhere_movesAll rfl
      intro g hg
      simp only [Bool.and_eq_true, beq_iff_eq] at hg
      exact .inr hg.2
  | _ => exact Db.moves_of_rows_eq rfl rfl

/-- A statement fails, whatever the database, or takes effect after some time. -/
theorem exec_sql (st : JobSql) (c : SqlChoice) (db : Db) :
  (c.error = none ∧ jobWorld.exec (.sql st) c db = st.exec c.id (db.later c.elapsed)) ∨
    ∃ e, c.error = some e ∧
      jobWorld.exec (.sql st) c db = (.error (.database e), db.later c.elapsed)
  := by
  cases herror : c.error with
  | none =>
      left
      simp only [jobWorld, herror, and_self]
  | some e =>
      right
      use e, rfl
      simp only [jobWorld, herror]

section Request

variable {q : JobRequest} (c : jobWorld.Choice q)

/-- What a request does to the grants. -/
theorem request_moves (db : Db) :
  db.Moves ⟨q, (jobWorld.exec q c db).1⟩ (jobWorld.exec q c db).2
  := by
  cases q with
  | sql st =>
      obtain ⟨_, hexec⟩ | ⟨e, _, hexec⟩ := exec_sql st c db
      · rw [hexec]
        -- the grants are the same at a later time
        obtain ⟨hkept, hsource⟩ := exec_moves c.id st (db.later c.elapsed)
        exact ⟨hkept, hsource⟩
      · rw [hexec]
        exact Db.moves_of_rows_eq rfl (charge_error st _)
  | _ => exact Db.moves_of_rows_eq rfl rfl

/-- What a statement does to the rest of the database: an application stays, an access is
logged if the exchange says so, and no time passes. -/
theorem JobSql.exec_rest (st : JobSql) (id : Uuid) (db : Db) :
  (∀ applicationId, db.hasApplication applicationId = true →
      (st.exec id db).2.hasApplication applicationId = true) ∧
    (st.exec id db).2.accesses = (logged ⟨.sql st, (st.exec id db).1⟩).toList ++ db.accesses ∧
    (st.exec id db).2.clock = db.clock
  := by
  have hrevoke : ∀ (p : Grant → Bool) (reason : String),
      (∀ applicationId, db.hasApplication applicationId = true →
        (db.revokeWhere p reason).2.hasApplication applicationId = true) ∧
      (db.revokeWhere p reason).2.accesses = db.accesses ∧
      (db.revokeWhere p reason).2.clock = db.clock := by
    intro p reason
    rw [Db.revokeWhere]
    split
    · exact ⟨fun _ h => h, rfl, rfl⟩
    · exact ⟨fun _ h => h, rfl, rfl⟩
  cases st with
  | insertApplication application grant =>
      rw [exec, Db.insertApplication]
      split
      · exact ⟨fun _ h => h, rfl, rfl⟩
      · rename_i applications happlications
        split
        · split
          · split
            · exact ⟨fun _ h => h, rfl, rfl⟩
            · refine ⟨?_, rfl, rfl⟩
              intro applicationId h
              obtain ⟨a, ha, hid⟩ := List.any_eq_true.mp h
              apply List.any_eq_true.mpr
              exact ⟨a, (Table.mem_of_insert happlications).mpr (.inr ha), hid⟩
          · exact ⟨fun _ h => h, rfl, rfl⟩
        · exact ⟨fun _ h => h, rfl, rfl⟩
  | selectApplicant a =>
      rw [exec]
      split
      · exact ⟨fun _ h => h, rfl, rfl⟩
      · exact ⟨fun _ h => h, rfl, rfl⟩
  | insertAccess row =>
      rw [exec, Db.insertAccess]
      split
      · split
        · exact ⟨fun _ h => h, rfl, rfl⟩
        · exact ⟨fun _ h => h, rfl, rfl⟩
      · exact ⟨fun _ h => h, rfl, rfl⟩
  | revokeForApplication applicantId jobApplicationId reason => exact hrevoke _ reason
  | revokeForMigration sourceActorId => exact hrevoke _ "account_migrated"
  | _ => exact ⟨fun _ h => h, rfl, rfl⟩

theorem request_applications (db : Db) {applicationId : Uuid}
    (h : db.hasApplication applicationId = true) :
  (jobWorld.exec q c db).2.hasApplication applicationId = true
  := by
  cases q with
  | sql st =>
      obtain ⟨_, hexec⟩ | ⟨e, _, hexec⟩ := exec_sql st c db
      · rw [hexec]
        apply (JobSql.exec_rest st c.id (db.later c.elapsed)).1 applicationId h
      · rw [hexec]
        exact h
  | _ => exact h

theorem request_accesses (db : Db) :
  (jobWorld.exec q c db).2.accesses =
    (logged ⟨q, (jobWorld.exec q c db).1⟩).toList ++ db.accesses
  := by
  cases q with
  | sql st =>
      obtain ⟨_, hexec⟩ | ⟨e, _, hexec⟩ := exec_sql st c db
      · rw [hexec]
        apply (JobSql.exec_rest st c.id (db.later c.elapsed)).2.1
      · rw [hexec, logged_error]
        rfl
  | _ => rfl

/-- Time does not go back. -/
theorem request_clock (db : Db) :
  db.clock ≤ (jobWorld.exec q c db).2.clock
  := by
  have hlater : ∀ elapsed, db.clock ≤ (db.later elapsed).clock :=
    fun elapsed => Int.le_add_of_nonneg_right (Int.natCast_nonneg elapsed)
  cases q with
  | sql st =>
      obtain ⟨_, hexec⟩ | ⟨e, _, hexec⟩ := exec_sql st c db
      · rw [hexec, (JobSql.exec_rest st c.id _).2.2]
        apply hlater
      · rw [hexec]
        apply hlater
  | _ => exact Int.le_refl _

/-- What is found under a hash is the grant with that hash, if there is one. -/
theorem request_found (db : Db) {hash : String} {r : Option (Uuid × Uuid)}
    (h : found ⟨q, (jobWorld.exec q c db).1⟩ = some (hash, r)) :
  r = (db.grants.find (·.tokenHash == hash)).map fun g => (g.id, g.jobApplicationId)
  := by
  cases q with
  | sql st =>
      obtain ⟨_, hexec⟩ | ⟨e, _, hexec⟩ := exec_sql st c db
      · rw [hexec] at h
        cases st with
        | spend document hash' origin =>
            rw [JobSql.exec, Db.spend] at h
            dsimp only at h
            cases hfind : (db.later c.elapsed).grants.find
                (Grant.isLive document hash' origin (db.later c.elapsed).clock) with
            | none =>
                rw [hfind] at h
                cases h
            | some g =>
                rw [hfind] at h
                obtain ⟨rfl, rfl⟩ := Prod.mk.inj (Option.some.inj h)
                obtain ⟨rfl, _⟩ := Grant.of_isLive (Table.satisfies_of_find hfind)
                have hg : g ∈ db.grants := Table.mem_of_find hfind
                rw [Db.find_of_mem hg]
                rfl
        | selectGrant hash' =>
            obtain ⟨rfl, rfl⟩ := Prod.mk.inj (Option.some.inj h)
            rfl
        | _ => cases h
      · rw [hexec, found_error] at h
        cases h
  | _ => cases h

theorem request_finds (db : Db) {grantId applicationId : Uuid}
    (h : Finds grantId applicationId ⟨q, (jobWorld.exec q c db).1⟩) :
  ∃ g ∈ db.grants, g.id = grantId ∧ g.jobApplicationId = applicationId
  := by
  obtain ⟨hash, hfound⟩ := h
  obtain ⟨g, hfind, heq⟩ := Option.map_eq_some_iff.mp (request_found c db hfound).symm
  obtain ⟨hid, happlication⟩ := Prod.mk.inj heq
  exact ⟨g, Table.mem_of_find hfind, hid, happlication⟩

/-- What is charged is a grant that is live, for its own audience. -/
theorem request_charge (db : Db) {document : Document} {id : Uuid}
    (h : charge ⟨q, (jobWorld.exec q c db).1⟩ = some (document, id)) :
  ∃ g ∈ db.grants, g.id = id ∧ q = .sql (.spend document g.tokenHash g.audienceOrigin) ∧
    g.isLive document g.tokenHash g.audienceOrigin (jobWorld.exec q c db).2.clock = true
  := by
  obtain ⟨applicationId, hfinds⟩ := finds_of_charge h
  obtain ⟨g, hg, rfl, rfl⟩ := request_finds c db hfinds
  obtain ⟨g', _, hmoves⟩ := (request_moves c db).kept g hg
  use g, hg, rfl
  cases hmoves with
  | same hnot => exact absurd h (hnot document)
  | charged document' hrequest hlive hcharge =>
      obtain ⟨rfl, _⟩ := Prod.mk.inj (Option.some.inj (h.symm.trans hcharge))
      exact ⟨hrequest, hlive⟩
  | revoked reason hnot => exact absurd h (hnot document)

end Request

end Exec

/-! ### The invariant -/

/-- A statement that a redemption makes after the one that charges, or refuses to, does not
fail. -/
def Recorded : StepCondition jobWorld Call
  | _, _, .sql (.selectGrant _), c, _ => c.error = none
  | _, _, .sql (.selectApplicant _), c, _ => c.error = none
  | _, _, .sql (.insertAccess _), c, _ => c.error = none
  | _, _, _, _, _ => True

instance Recorded.decidable : ∀ (i : Nat) (t : Call) (q : JobRequest) (c : jobWorld.Choice q)
    (s : Reading), Decidable (Recorded i t q c s)
  | _, _, .sql (.selectGrant _), c, _ => inferInstanceAs (Decidable (c.error = none))
  | _, _, .sql (.selectApplicant _), c, _ => inferInstanceAs (Decidable (c.error = none))
  | _, _, .sql (.insertAccess _), c, _ => inferInstanceAs (Decidable (c.error = none))
  | _, _, .sql (.getJob _), _, _ => isTrue trivial
  | _, _, .sql (.selectOrganisation _), _, _ => isTrue trivial
  | _, _, .sql (.insertApplication _ _), _, _ => isTrue trivial
  | _, _, .sql (.spend _ _ _), _, _ => isTrue trivial
  | _, _, .sql (.revokeForApplication _ _ _), _, _ => isTrue trivial
  | _, _, .sql (.revokeForMigration _), _, _ => isTrue trivial
  | _, _, .renderMarkup _, _, _ => isTrue trivial
  | _, _, .newUuid, _, _ => isTrue trivial
  | _, _, .mintToken, _, _ => isTrue trivial
  | _, _, .utcNow, _, _ => isTrue trivial
  | _, _, .respond _, _, _ => isTrue trivial

/-- The answer is one that the database gives to a statement that does not fail, and to a
charge that does. -/
def Fares : Granting.Exchange → Prop
  | ⟨.sql (.spend _ _ _), .error e⟩ => e ≠ .forbidden
  | ⟨.sql (.selectGrant _), .error _⟩ => False
  | ⟨.sql (.selectApplicant _), .error _⟩ => False
  | ⟨.sql (.insertAccess _), .error _⟩ => False
  | _ => True

/-- The uses of a document that a grant is minted with. -/
def NewGrant.budget : Document → NewGrant → Int
  | .application, grant => grant.documentUsesRemaining
  | .cv, grant => grant.cvUsesRemaining

/-- What became of a grant: the same grant, revoked if it was. -/
structure Grant.Becomes (g g' : Grant) : Prop where
  id : g'.id = g.id
  tokenHash : g'.tokenHash = g.tokenHash
  audienceOrigin : g'.audienceOrigin = g.audienceOrigin
  expiresAt : g'.expiresAt = g.expiresAt
  jobApplicationId : g'.jobApplicationId = g.jobApplicationId
  revocation : ∀ r, g.revocation = some r → g'.revocation = some r

theorem Grant.Becomes.refl (g : Grant) :
  g.Becomes g
  := ⟨rfl, rfl, rfl, rfl, rfl, fun _ h => h⟩

theorem Grant.Becomes.trans {g g' g'' : Grant} (h : g.Becomes g') (h' : g'.Becomes g'') :
  g.Becomes g''
  where
  id := h'.id.trans h.id
  tokenHash := h'.tokenHash.trans h.tokenHash
  audienceOrigin := h'.audienceOrigin.trans h.audienceOrigin
  expiresAt := h'.expiresAt.trans h.expiresAt
  jobApplicationId := h'.jobApplicationId.trans h.jobApplicationId
  revocation r hr := h'.revocation r (h.revocation r hr)

/-- A grant that has a revocation is revoked. -/
def Grant.Consistent (g : Grant) : Prop :=
  g.revocation ≠ none → g.state = .revoked

section Moves

variable {now : DateTime} {x : Granting.Exchange} {g g' : Grant}

theorem Grant.Moves.becomes (h : g.Moves now x g') (hg : g.Consistent) :
  g.Becomes g'
  := by
  cases h with
  | same => exact Becomes.refl g
  | charged document =>
      cases document with
      | application => exact ⟨rfl, rfl, rfl, rfl, rfl, fun _ h => h⟩
      | cv => exact ⟨rfl, rfl, rfl, rfl, rfl, fun _ h => h⟩
  | revoked reason h hactive =>
      refine ⟨rfl, rfl, rfl, rfl, rfl, ?_⟩
      intro r hr
      rcases hactive with hnone | hactive
      · rw [hnone] at hr
        cases hr
      · rw [hg (by simp [hr])] at hactive
        cases hactive

theorem Grant.Moves.consistent (h : g.Moves now x g') (hg : g.Consistent) :
  g'.Consistent
  := by
  cases h with
  | same => exact hg
  | charged document =>
      cases document with
      | application => exact hg
      | cv => exact hg
  | revoked reason => exact fun _ => rfl

@[simp]
theorem Grant.usesRemaining_charged_self (g : Grant) (document : Document) :
  (g.charged document).usesRemaining document = g.usesRemaining document - 1
  := by
  cases document <;> rfl

theorem Grant.usesRemaining_charged_of_ne (g : Grant) {document document' : Document}
    (h : document' ≠ document) :
  (g.charged document').usesRemaining document = g.usesRemaining document
  := by
  cases document <;> cases document' <;> trivial

@[simp]
theorem Grant.usesRemaining_revoke (g : Grant) (now : DateTime) (reason : String)
    (document : Document) :
  (g.revoke now reason).usesRemaining document = g.usesRemaining document
  := by
  cases document <;> rfl

/-- Each charge takes one use of the budget, of which some was left. -/
theorem Grant.Moves.uses (h : g.Moves now x g') (document : Document) :
  (if charge x = some (document, g.id) then 1 else 0) + g'.usesRemaining document =
      g.usesRemaining document ∧
    (0 ≤ g.usesRemaining document → 0 ≤ g'.usesRemaining document)
  := by
  cases h with
  | same hcharge =>
      rw [if_neg (hcharge document)]
      exact ⟨Int.zero_add _, fun h => h⟩
  | charged document' hrequest hlive hcharge =>
      by_cases heq : document' = document
      · subst heq
        have hpos := (Grant.of_isLive hlive).2.2.2.2
        rw [if_pos hcharge, usesRemaining_charged_self]
        omega
      · rw [if_neg (by simp [hcharge, heq]), usesRemaining_charged_of_ne _ heq]
        exact ⟨Int.zero_add _, fun h => h⟩
  | revoked reason hcharge =>
      rw [if_neg (hcharge document), usesRemaining_revoke]
      exact ⟨Int.zero_add _, fun h => h⟩

end Moves

/-- The exchange that minted a grant, whose budget is what is left and what was charged. -/
def Grant.Accounted (g : Grant) (h : Granting.History Call) : Prop :=
  ∃ e ∈ h, ∃ grant, minted e.exchange = some grant ∧ grant.tokenHash = g.tokenHash ∧
    grant.audienceOrigin = g.audienceOrigin ∧ grant.expiresAt = g.expiresAt ∧
    ∀ document, charges document g.id h + g.usesRemaining document = grant.budget document ∧
      0 ≤ g.usesRemaining document

/-- What holds of every pool that has started without grants. -/
structure Accounted (hashToken : String → String) (s : Reading) : Prop where
  applied : ∀ g ∈ s.state.grants, s.state.hasApplication g.jobApplicationId = true
  consistent : ∀ g ∈ s.state.grants, g.Consistent
  budget : ∀ g ∈ s.state.grants, g.Accounted s.history
  accesses : s.state.accesses = s.history.filterMap (logged ·.exchange)
  found : ∀ e ∈ s.history, ∀ grantId applicationId, Finds grantId applicationId e.exchange →
    ∃ g ∈ s.state.grants, g.id = grantId ∧ g.jobApplicationId = applicationId
  charged : ∀ e ∈ s.history, ∀ document id, charge e.exchange = some (document, id) →
    ∃ g ∈ s.state.grants, g.id = id ∧
      e.exchange.request = .sql (.spend document g.tokenHash g.audienceOrigin)
  replied : ∀ e ∈ s.history, ∀ r, answered e.exchange = some r →
    ∃ l, s.history.trace e.thread = e.exchange :: l ∧ ∃ token origin document,
      e.task = .redeem token origin document ∧ Redeems (hashToken token) origin document l r
  fares : ∀ e ∈ s.history, Fares e.exchange

theorem accounted_initial {hashToken : String → String} {db : Db}
    (hgrants : ∀ g, ¬ g ∈ db.grants) (haccesses : db.accesses = []) :
  Accounted hashToken (.initial db)
  := by
  constructor
  case applied =>
    intro g hg
    exact (hgrants g hg).elim
  case consistent =>
    intro g hg
    exact (hgrants g hg).elim
  case budget =>
    intro g hg
    exact (hgrants g hg).elim
  case accesses => exact haccesses
  all_goals
    intro e he
    cases he

section Preserved

variable {hashToken : String → String} {q : JobRequest} {i : Nat} {t : Call}
  {c : jobWorld.Choice q} {s : Reading} (haccounted : Accounted hashToken s)
  (hasked : Asked hashToken t (s.history.trace i) q) (hC : Recorded i t q c s)
  {k : Granting.Answer q → Program Granting Unit}

include haccounted

/-- What becomes of a grant of the pool. -/
theorem Accounted.becomes {g : Grant} (hg : g ∈ s.state.grants) :
  ∃ g' ∈ (s.exchange jobWorld i t q k c).state.grants, g.Becomes g'
  := by
  obtain ⟨g', hg', hmoves⟩ := (request_moves c s.state).kept g hg
  exact ⟨g', hg', hmoves.becomes (haccounted.consistent g hg)⟩

theorem accounted_consistent :
  ∀ g ∈ (s.exchange jobWorld i t q k c).state.grants, g.Consistent
  := by
  intro g' hg'
  rcases (request_moves c s.state).source g' hg' with ⟨g, hg, hmoves⟩ | ⟨_, grant, id, _, _, _, rfl, _⟩
  · exact hmoves.consistent (haccounted.consistent g hg)
  · intro h
    exact absurd rfl h

theorem accounted_accesses :
  (s.exchange jobWorld i t q k c).state.accesses =
    (s.exchange jobWorld i t q k c).history.filterMap (logged ·.exchange)
  := by
  change (jobWorld.exec q c s.state).2.accesses = List.filterMap _ (_ :: s.history)
  rw [request_accesses c s.state, haccounted.accesses, List.filterMap_cons]
  cases logged ⟨q, (jobWorld.exec q c s.state).1⟩ with
  | none => rfl
  | some row => rfl

theorem accounted_found :
  ∀ e ∈ (s.exchange jobWorld i t q k c).history, ∀ grantId applicationId,
    Finds grantId applicationId e.exchange →
      ∃ g ∈ (s.exchange jobWorld i t q k c).state.grants,
        g.id = grantId ∧ g.jobApplicationId = applicationId
  := by
  intro e he grantId applicationId hfinds
  have hbefore : ∃ g ∈ s.state.grants, g.id = grantId ∧ g.jobApplicationId = applicationId := by
    rcases List.mem_cons.mp he with rfl | he
    · exact request_finds c s.state hfinds
    · exact haccounted.found e he grantId applicationId hfinds
  obtain ⟨g, hg, rfl, rfl⟩ := hbefore
  obtain ⟨g', hg', hbecomes⟩ := haccounted.becomes (i := i) (t := t) (c := c) (k := k) hg
  exact ⟨g', hg', hbecomes.id, hbecomes.jobApplicationId⟩

include hasked

theorem accounted_applied :
  ∀ g ∈ (s.exchange jobWorld i t q k c).state.grants,
    (s.exchange jobWorld i t q k c).state.hasApplication g.jobApplicationId = true
  := by
  intro g' hg'
  rcases (request_moves c s.state).source g' hg' with
    ⟨g, hg, hmoves⟩ | ⟨application, grant, id, hrequest, _, happlication, rfl, _⟩
  · rw [(hmoves.becomes (haccounted.consistent g hg)).jobApplicationId]
    apply request_applications c s.state (haccounted.applied g hg)
  · change q = _ at hrequest
    subst hrequest
    have hof : grant.jobApplicationId = application.id := hasked.2.1
    change (jobWorld.exec _ c s.state).2.hasApplication grant.jobApplicationId = true
    rw [hof]
    exact happlication

theorem accounted_replied :
  ∀ e ∈ (s.exchange jobWorld i t q k c).history, ∀ r, answered e.exchange = some r →
    ∃ l, (s.exchange jobWorld i t q k c).history.trace e.thread = e.exchange :: l ∧
      ∃ token origin document, e.task = .redeem token origin document ∧
        Redeems (hashToken token) origin document l r
  := by
  intro e he r hr
  rcases List.mem_cons.mp he with rfl | hbefore
  · refine ⟨s.history.trace i, Pool.trace_exchange_same, ?_⟩
    cases q with
    | respond response =>
        cases response with
        | redeemed r' =>
            obtain rfl := Option.some.inj hr
            exact hasked.2
        | _ => cases hr
    | sql st => cases hr
    | _ => cases hr
  · have hne : i ≠ e.thread := by
      rintro rfl
      have hnone := hasked.1 e.exchange (Interface.History.mem_trace.mpr ⟨e, hbefore, rfl, rfl⟩)
      rw [hr] at hnone
      cases hnone
    rw [Pool.trace_exchange_other hne]
    exact haccounted.replied e hbefore r hr

omit hasked

theorem accounted_charged :
  ∀ e ∈ (s.exchange jobWorld i t q k c).history, ∀ document id,
    charge e.exchange = some (document, id) →
      ∃ g ∈ (s.exchange jobWorld i t q k c).state.grants, g.id = id ∧
        e.exchange.request = .sql (.spend document g.tokenHash g.audienceOrigin)
  := by
  intro e he document id hcharge
  have hbefore : ∃ g ∈ s.state.grants, g.id = id ∧
      e.exchange.request = .sql (.spend document g.tokenHash g.audienceOrigin) := by
    rcases List.mem_cons.mp he with rfl | he
    · obtain ⟨g, hg, hid, hrequest, _⟩ := request_charge c s.state hcharge
      exact ⟨g, hg, hid, hrequest⟩
    · exact haccounted.charged e he document id hcharge
  obtain ⟨g, hg, rfl, hrequest⟩ := hbefore
  obtain ⟨g', hg', hbecomes⟩ := haccounted.becomes (i := i) (t := t) (c := c) (k := k) hg
  refine ⟨g', hg', hbecomes.id, ?_⟩
  rw [hbecomes.tokenHash, hbecomes.audienceOrigin]
  exact hrequest

theorem accounted_budget (hasked : Asked hashToken t (s.history.trace i) q) :
  ∀ g ∈ (s.exchange jobWorld i t q k c).state.grants,
    g.Accounted (s.exchange jobWorld i t q k c).history
  := by
  have hcount : ∀ document id, charges document id (s.exchange jobWorld i t q k c).history =
      (if charge ⟨q, (jobWorld.exec q c s.state).1⟩ = some (document, id) then 1 else 0) +
        charges document id s.history := by
    intro document id
    rw [charges, Pool.exchange, List.countP_cons, Nat.add_comm]
    simp only [beq_iff_eq, charges]
  intro g' hg'
  rcases (request_moves c s.state).source g' hg' with
    ⟨g, hg, hmoves⟩ | ⟨application, grant, id, hrequest, hminted, _, rfl, hfresh⟩
  · obtain ⟨e, he, grant, hminted, hhash, horigin, hexpires, hbudget⟩ := haccounted.budget g hg
    have hbecomes := hmoves.becomes (haccounted.consistent g hg)
    refine ⟨e, List.mem_cons_of_mem _ he, grant, hminted, ?_, ?_, ?_, ?_⟩
    · rw [hhash, hbecomes.tokenHash]
    · rw [horigin, hbecomes.audienceOrigin]
    · rw [hexpires, hbecomes.expiresAt]
    · intro document
      obtain ⟨huses, hnonneg⟩ := hmoves.uses document
      obtain ⟨htotal, hleft⟩ := hbudget document
      refine ⟨?_, hnonneg hleft⟩
      rw [hcount, hbecomes.id, ← htotal, ← huses]
      split
      · omega
      · omega
  · change q = _ at hrequest
    subst hrequest
    refine ⟨_, List.mem_cons_self, grant, hminted, rfl, rfl, rfl, ?_⟩
    intro document
    have hnone : charges document id s.history = 0 := by
      rw [charges, List.countP_eq_zero]
      intro e he hcharge
      obtain ⟨g, hg, hid, _⟩ := haccounted.charged e he document id (beq_iff_eq.mp hcharge)
      exact hfresh g hg hid
    constructor
    · have hid : (Db.newGrant grant id).id = id := rfl
      rw [hcount, hid, hnone, if_neg (by simp [charge])]
      cases document with
      | application => exact Int.zero_add _
      | cv => exact Int.zero_add _
    · obtain ⟨_, huses, hcv⟩ := hasked.2
      cases document with
      | application =>
          change 0 ≤ grant.documentUsesRemaining
          rw [huses]
          decide
      | cv =>
          change 0 ≤ grant.cvUsesRemaining
          rw [hcv]
          split
          · decide
          · decide

theorem accounted_fares (hasked : Asked hashToken t (s.history.trace i) q)
    (hC : Recorded i t q c s) :
  ∀ e ∈ (s.exchange jobWorld i t q k c).history, Fares e.exchange
  := by
  -- what a thread has found is there, and so is the application it belongs to
  have hfound : ∀ grantId applicationId,
      (∃ x ∈ s.history.trace i, Finds grantId applicationId x) →
        s.state.hasApplication applicationId = true ∧
          s.state.grants.rows.any (·.id == grantId) = true := by
    rintro grantId applicationId ⟨x, hx, hfinds⟩
    obtain ⟨e, he, _, rfl⟩ := Interface.History.mem_trace.mp hx
    obtain ⟨g, hg, rfl, rfl⟩ := haccounted.found e he grantId applicationId hfinds
    constructor
    · exact haccounted.applied g hg
    · exact List.any_eq_true.mpr ⟨g, hg, by simp⟩
  intro e he
  rcases List.mem_cons.mp he with rfl | he
  · cases q with
    | sql st =>
        obtain ⟨_, hexec⟩ | ⟨m, herror, hexec⟩ := exec_sql st c s.state
        · rw [hexec]
          cases st with
          | spend document hash origin => trivial
          | selectGrant hash => trivial
          | selectApplicant applicationId =>
              obtain ⟨grantId, hfinds⟩ := hasked.2
              obtain ⟨happlication, _⟩ := hfound grantId applicationId hfinds
              obtain ⟨a, ha⟩ := Option.isSome_iff_exists.mp (List.find?_isSome.mpr
                (List.any_eq_true.mp happlication))
              have hfind : (s.state.later c.elapsed).applications.find
                  (·.id == applicationId) = some a := ha
              rw [JobSql.exec, hfind]
              trivial
          | insertAccess row =>
              obtain ⟨grantId, applicationId, outcome, hfinds, rfl⟩ := hasked.2
              obtain ⟨happlication, hgrant⟩ := hfound grantId applicationId hfinds
              have hadmits : Db.admits (access applicationId (some grantId) none outcome none) =
                  true := rfl
              have hkeys : ((s.state.later c.elapsed).hasApplication applicationId &&
                  (some grantId).all fun id =>
                    (s.state.later c.elapsed).grants.rows.any (·.id == id)) = true := by
                rw [Bool.and_eq_true]
                exact ⟨happlication, hgrant⟩
              rw [JobSql.exec, Db.insertAccess, if_pos hadmits, access, if_pos hkeys]
              trivial
          | _ => trivial
        · rw [hexec]
          cases st with
          | spend document hash origin =>
              intro hforbidden
              cases hforbidden
          | selectGrant hash => cases herror.symm.trans hC
          | selectApplicant applicationId => cases herror.symm.trans hC
          | insertAccess row => cases herror.symm.trans hC
          | _ => trivial
    | respond r => trivial
    | _ => trivial
  · exact haccounted.fares e he

theorem accounted_exchange (hasked : Asked hashToken t (s.history.trace i) q)
    (hC : Recorded i t q c s) :
  Accounted hashToken (s.exchange jobWorld i t q k c)
  where
  applied := accounted_applied haccounted hasked
  consistent := accounted_consistent haccounted
  budget := accounted_budget haccounted hasked
  accesses := accounted_accesses haccounted
  found := accounted_found haccounted
  charged := accounted_charged haccounted
  replied := accounted_replied haccounted hasked
  fares := accounted_fares haccounted hasked hC

end Preserved

/-! ### What happens to a grant -/

/-- A grant that admits no reader any more. -/
def Grant.Closed (now : DateTime) (g : Grant) : Prop :=
  g.revocation ≠ none ∨ g.expiresAt ≤ now

/-- What is found under the hash of a grant is that grant. -/
def Grant.Answers (g : Grant) (x : Granting.Exchange) : Prop :=
  ∀ r, Jobs.found x = some (g.tokenHash, r) → r = some (g.id, g.jobApplicationId)

/-- What has happened to a grant of the pool `s` in the pool `s'` that came of it: it is
found by its hash, and is charged no more once it is closed. -/
structure Later (g : Grant) (s s' : Reading) : Prop where
  becomes : ∃ g' ∈ s'.state.grants, g.Becomes g'
  clock : s.state.clock ≤ s'.state.clock
  history : ∃ later, s'.history = later ++ s.history ∧ (∀ e ∈ later, g.Answers e.exchange) ∧
    (g.Closed s.state.clock → ∀ e ∈ later, ∀ document, charge e.exchange ≠ some (document, g.id))

theorem later_refl {g : Grant} {s : Reading} (hg : g ∈ s.state.grants) :
  Later g s s
  where
  becomes := ⟨g, hg, Grant.Becomes.refl g⟩
  clock := Int.le_refl _
  history := ⟨[], rfl, by simp, by simp⟩

section Later

variable {hashToken : String → String} {q : JobRequest} {i : Nat} {t : Call}
  {c : jobWorld.Choice q} {g : Grant} {s₀ s : Reading}
  {k : Granting.Answer q → Program Granting Unit}

theorem Later.answers (hlater : Later g s₀ s) :
  g.Answers ⟨q, (jobWorld.exec q c s.state).1⟩
  := by
  intro r hfound
  obtain ⟨g', hg', hbecomes⟩ := hlater.becomes
  rw [request_found c s.state hfound, ← hbecomes.tokenHash, Db.find_of_mem hg', Option.map_some,
    hbecomes.id, hbecomes.jobApplicationId]

theorem Later.uncharged (hlater : Later g s₀ s) (hclosed : g.Closed s₀.state.clock)
    (document : Document) :
  charge ⟨q, (jobWorld.exec q c s.state).1⟩ ≠ some (document, g.id)
  := by
  intro hcharge
  obtain ⟨g₁, hg₁, hid, _, hlive⟩ := request_charge c s.state hcharge
  obtain ⟨g', hg', hbecomes⟩ := hlater.becomes
  obtain rfl := Db.eq_of_id hg₁ hg' (hid.trans hbecomes.id.symm)
  obtain ⟨_, _, hnone, hexpires, _⟩ := Grant.of_isLive hlive
  rcases hclosed with hrevoked | hexpired
  · obtain ⟨r, hr⟩ := Option.ne_none_iff_exists'.mp hrevoked
    rw [hbecomes.revocation r hr] at hnone
    cases hnone
  · rw [hbecomes.expiresAt] at hexpires
    have hclock := request_clock c s.state
    exact absurd (Int.le_trans hlater.clock hclock)
      (Int.not_le.mpr (Int.lt_of_lt_of_le hexpires hexpired))

theorem later_exchange (haccounted : Accounted hashToken s) (hlater : Later g s₀ s) :
  Later g s₀ (s.exchange jobWorld i t q k c)
  := by
  constructor
  · obtain ⟨g', hg', hbecomes⟩ := hlater.becomes
    obtain ⟨g'', hg'', hbecomes'⟩ := haccounted.becomes (i := i) (t := t) (c := c) (k := k) hg'
    exact ⟨g'', hg'', hbecomes.trans hbecomes'⟩
  · exact Int.le_trans hlater.clock (request_clock c s.state)
  · obtain ⟨later, hhistory, hanswers, huncharged⟩ := hlater.history
    refine ⟨⟨i, t, q, (jobWorld.exec q c s.state).1⟩ :: later, ?_, ?_, ?_⟩
    · rw [List.cons_append, ← hhistory]
      rfl
    · intro e he
      rcases List.mem_cons.mp he with rfl | he
      · exact hlater.answers
      · exact hanswers e he
    · intro hclosed e he
      rcases List.mem_cons.mp he with rfl | he
      · exact hlater.uncharged hclosed
      · exact huncharged hclosed e he

end Later

theorem accounted_reaches {hashToken : String → String} {s s' : Reading}
    (hdisc : s.Disciplined (Asked hashToken)) (haccounted : Accounted hashToken s)
    (h : Reaches jobWorld (Call.program hashToken) Recorded s s') :
  s'.Disciplined (Asked hashToken) ∧ Accounted hashToken s' ∧
    ∀ g ∈ s.state.grants, Later g s s'
  := by
  apply Step.inv (fun s' => Accounted hashToken s' ∧ ∀ g ∈ s.state.grants, Later g s s')
    (asks_program hashToken) _ _ hdisc _ h
  · rintro s₁ t ⟨haccounted, hlater⟩
    obtain ⟨applied, consistent, budget, accesses, found, charged, replied, fares⟩ := haccounted
    constructor
    · exact ⟨applied, consistent, budget, accesses, found, charged, replied, fares⟩
    · intro g hg
      obtain ⟨becomes, clock, history⟩ := hlater g hg
      exact ⟨becomes, clock, history⟩
  · rintro s₁ i t q k c _ ⟨haccounted, hlater⟩ _ hasked hC
    exact ⟨accounted_exchange haccounted hasked hC,
      fun g hg => later_exchange haccounted (hlater g hg)⟩
  · exact ⟨haccounted, fun g hg => later_refl hg⟩

/-! ### Redemptions -/

/-- A redemption for a document from an origin, answered with `r` after the exchanges `l`,
charges the grant once and logs a disclosure if it succeeds; it charges nothing and logs a
refusal if it is refused, and does neither if it fails. -/
def Grant.Settled (g : Grant) (origin : String) (document : Document)
    (l : List Granting.Exchange) : Except NoombatError Redeemed → Prop
  | .ok r => r.grantId = g.id ∧ origin = g.audienceOrigin ∧
      l.filterMap charge = [(document, g.id)] ∧
      l.filterMap logged = [access g.jobApplicationId (some g.id) none "disclosed" none]
  | .error .forbidden => l.filterMap charge = [] ∧
      l.filterMap logged = [access g.jobApplicationId (some g.id) none "denied" none]
  | .error _ => l.filterMap charge = [] ∧ l.filterMap logged = []

/-- The answer to a redemption neither charges nor logs anything. -/
theorem Grant.Settled.cons_answer {g : Grant} {origin : String} {document : Document}
    {l : List Granting.Exchange} {r : Except NoombatError Redeemed}
    (h : g.Settled origin document l r) {x : Granting.Exchange} (hx : answered x = some r) :
  g.Settled origin document (x :: l) r
  := by
  unfold answered at hx
  split at hx
  · cases r with
    | ok r => exact h
    | error e => cases e <;> exact h
  · cases hx

/-- What is promised of a grant of the pool `s` in the pool `s'` that came of it. -/
structure Honoured (hashToken : String → String) (g : Grant) (s s' : Reading) : Prop where
  /-- The redemptions that succeed are within the budget that the grant was minted with. -/
  budget : ∃ e ∈ s'.history, ∃ grant, minted e.exchange = some grant ∧
    grant.tokenHash = g.tokenHash ∧ grant.audienceOrigin = g.audienceOrigin ∧
    ∀ document, successes document g.id s'.history ≤ grant.budget document
  /-- They are from the origin that the grant was made out to. -/
  audience : ∀ e ∈ s'.history, ∀ document, succeeds document g.id e = true →
    ∃ token, e.task = .redeem token g.audienceOrigin document ∧ hashToken token = g.tokenHash
  /-- The uses that remain are never negative, and a revocation stands. -/
  kept : ∃ g' ∈ s'.state.grants, g.Becomes g' ∧ g'.Consistent ∧
    ∀ document, 0 ≤ g'.usesRemaining document
  /-- Nothing is charged once the grant has been revoked, or has expired. -/
  closed : g.Closed s.state.clock → ∃ later, s'.history = later ++ s.history ∧
    ∀ e ∈ later, ∀ document, charge e.exchange ≠ some (document, g.id)
  /-- A redemption that starts when the grant exists is settled, and fails if it is closed. -/
  settled : ∀ e ∈ s'.history, s.threads.length ≤ e.thread → ∀ token origin document,
    e.task = .redeem token origin document → hashToken token = g.tokenHash →
      ∀ r, answered e.exchange = some r →
        g.Settled origin document (s'.history.trace e.thread) r ∧
          (r.isOk = true → ¬ g.Closed s.state.clock)
  /-- The log is what the exchanges logged. -/
  log : s'.state.accesses = s'.history.filterMap (logged ·.exchange)

theorem of_succeeds {document : Document} {id : Uuid} {e : Event}
    (h : succeeds document id e = true) :
  ∃ token origin r, e.task = .redeem token origin document ∧
    answered e.exchange = some (.ok r) ∧ r.grantId = id
  := by
  unfold succeeds at h
  split at h
  · rename_i token origin document' r htask hanswered
    rw [Bool.and_eq_true, beq_iff_eq, beq_iff_eq] at h
    obtain ⟨rfl, rfl⟩ := h
    exact ⟨token, origin, r, htask, hanswered, rfl⟩
  · cases h

/-- A redemption that succeeds has charged the grant it returns. -/
theorem Redeems.of_ok {hash origin : String} {document : Document} {l : List Granting.Exchange}
    {r : Redeemed} (h : Redeems hash origin document l (.ok r)) :
  ∃ x ∈ l, x.request = .sql (.spend document hash origin) ∧
    charge x = some (document, r.grantId)
  := by
  cases h with
  | disclosed grantId applicationId applicantId =>
      use ⟨.sql (.spend document hash origin), .ok (some (grantId, applicationId))⟩
      exact ⟨by simp, rfl, rfl⟩

section Reply

variable {hashToken : String → String} {s : Reading} (haccounted : Accounted hashToken s)

include haccounted

/-- What the thread of a redemption that succeeds has exchanged. -/
theorem Accounted.of_succeeds {document : Document} {id : Uuid} {e : Event} (he : e ∈ s.history)
    (h : succeeds document id e = true) :
  ∃ token origin r l, e.task = .redeem token origin document ∧ r.grantId = id ∧
    s.history.trace e.thread = e.exchange :: l ∧
    Redeems (hashToken token) origin document l (.ok r)
  := by
  obtain ⟨token, origin, r, htask, hanswered, hid⟩ := Jobs.of_succeeds h
  obtain ⟨l, htrace, token', origin', document', htask', hredeems⟩ :=
    haccounted.replied e he _ hanswered
  rw [htask] at htask'
  obtain ⟨rfl, rfl, rfl⟩ := Call.redeem.inj htask'
  exact ⟨token, origin, r, l, htask, hid, htrace, hredeems⟩

/-- As many redemptions of a grant succeed as charge it, at most. -/
theorem successes_le_charges (document : Document) (id : Uuid) :
  successes document id s.history ≤ charges document id s.history
  := by
  apply Interface.History.countP_le_of_threads
  intro i
  by_cases hany : ∃ e ∈ s.history, e.thread = i ∧ succeeds document id e = true
  · obtain ⟨e, he, rfl, hsucceeds⟩ := hany
    obtain ⟨token, origin, r, l, _, rfl, htrace, hredeems⟩ := haccounted.of_succeeds he hsucceeds
    -- the one answer of the thread is its last exchange
    have hanswers : (s.history.trace e.thread).countP (fun x => (answered x).isSome) ≤ 1 := by
      rw [htrace, List.countP_cons]
      have hnone : l.countP (fun x => (answered x).isSome) = 0 := by
        rw [List.countP_eq_zero]
        intro x hx
        simp [hredeems.unanswered x hx]
      rw [hnone]
      split
      · exact Nat.le_refl _
      · exact Nat.zero_le _
    have hcharged : 0 < (s.history.trace e.thread).countP
        (charge · == some (document, r.grantId)) := by
      obtain ⟨x, hx, _, hcharge⟩ := hredeems.of_ok
      rw [List.countP_pos_iff]
      exact ⟨x, htrace ▸ List.mem_cons_of_mem _ hx, beq_iff_eq.mpr hcharge⟩
    rw [Interface.History.trace, List.countP_map] at hanswers hcharged
    calc (s.history.filter (·.thread == e.thread)).countP (succeeds document r.grantId)
        ≤ (s.history.filter (·.thread == e.thread)).countP
            ((fun x => (answered x).isSome) ∘ (·.exchange)) := by
          apply List.countP_mono_left
          intro e' _ hsucceeds'
          obtain ⟨_, _, r', _, hanswered, _⟩ := Jobs.of_succeeds hsucceeds'
          simp [hanswered]
      _ ≤ 1 := hanswers
      _ ≤ _ := hcharged
  · have hzero : (s.history.filter (·.thread == i)).countP (succeeds document id) = 0 := by
      rw [List.countP_eq_zero]
      intro e he hsucceeds
      obtain ⟨he, hthread⟩ := List.mem_filter.mp he
      exact hany ⟨e, he, beq_iff_eq.mp hthread, hsucceeds⟩
    rw [hzero]
    exact Nat.zero_le _

end Reply

/-- A redemption of a grant that is found is settled. -/
theorem Redeems.settled {g : Grant} {origin : String} {document : Document}
    {l : List Granting.Exchange} {r : Except NoombatError Redeemed}
    (h : Redeems g.tokenHash origin document l r) (hfares : ∀ x ∈ l, Fares x)
    (hanswers : ∀ x ∈ l, g.Answers x)
    (haudience : ∀ x ∈ l, ∀ document, charge x = some (document, g.id) →
      x.request = .sql (.spend document g.tokenHash g.audienceOrigin)) :
  g.Settled origin document l r
  := by
  cases h with
  | failed e =>
      have hne : e ≠ .forbidden := hfares _ List.mem_cons_self
      cases e with
      | forbidden => exact absurd rfl hne
      | _ => exact ⟨rfl, rfl⟩
  | unread grantId applicationId e => exact (hfares _ List.mem_cons_self).elim
  | unlogged grantId applicationId applicantId e => exact (hfares _ List.mem_cons_self).elim
  | disclosed grantId applicationId applicantId =>
      have hmem : ∀ (x y z : Granting.Exchange), z ∈ [x, y, z] := by simp
      have hfound := hanswers _ (hmem _ _ _) _ rfl
      obtain ⟨rfl, rfl⟩ := Prod.mk.inj (Option.some.inj hfound)
      have hrequest := haudience _ (hmem _ _ _) document rfl
      obtain ⟨_, _, horigin⟩ := JobSql.spend.inj (JobRequest.sql.inj hrequest)
      exact ⟨rfl, horigin, rfl, rfl⟩
  | unknown r hr =>
      cases r with
      | error e => exact (hfares _ List.mem_cons_self).elim
      | ok grant =>
          have hfound := hanswers _ List.mem_cons_self _ rfl
          exact absurd (congrArg Except.ok hfound) (hr _)
  | denied grantId applicationId r =>
      cases r with
      | error e => exact (hfares _ List.mem_cons_self).elim
      | ok u =>
          have hfound := hanswers _ (List.mem_cons_of_mem _ List.mem_cons_self) _ rfl
          obtain ⟨rfl, rfl⟩ := Prod.mk.inj (Option.some.inj hfound)
          exact ⟨rfl, rfl⟩

section Honoured

variable {hashToken : String → String} {g : Grant} {s s' : Reading}
  (hdisc : s.Disciplined (Asked hashToken)) (haccounted : Accounted hashToken s')
  (hlater : Later g s s')

include haccounted hlater

theorem audience_of_charge {e : Event} (he : e ∈ s'.history) {document : Document}
    (hcharge : charge e.exchange = some (document, g.id)) :
  e.exchange.request = .sql (.spend document g.tokenHash g.audienceOrigin)
  := by
  obtain ⟨g₁, hg₁, hid, hrequest⟩ := haccounted.charged e he document g.id hcharge
  obtain ⟨g', hg', hbecomes⟩ := hlater.becomes
  obtain rfl := Db.eq_of_id hg₁ hg' (hid.trans hbecomes.id.symm)
  rw [hrequest, hbecomes.tokenHash, hbecomes.audienceOrigin]

theorem honoured_budget :
  ∃ e ∈ s'.history, ∃ grant, minted e.exchange = some grant ∧
    grant.tokenHash = g.tokenHash ∧ grant.audienceOrigin = g.audienceOrigin ∧
    ∀ document, successes document g.id s'.history ≤ grant.budget document
  := by
  obtain ⟨g', hg', hbecomes⟩ := hlater.becomes
  obtain ⟨e, he, grant, hminted, hhash, horigin, _, hbudget⟩ := haccounted.budget g' hg'
  refine ⟨e, he, grant, hminted, hhash.trans hbecomes.tokenHash,
    horigin.trans hbecomes.audienceOrigin, ?_⟩
  intro document
  obtain ⟨htotal, hleft⟩ := hbudget document
  have hle := successes_le_charges haccounted document g.id
  rw [hbecomes.id] at htotal
  omega

theorem honoured_audience :
  ∀ e ∈ s'.history, ∀ document, succeeds document g.id e = true →
    ∃ token, e.task = .redeem token g.audienceOrigin document ∧ hashToken token = g.tokenHash
  := by
  intro e he document hsucceeds
  obtain ⟨token, origin, r, l, htask, hid, htrace, hredeems⟩ := haccounted.of_succeeds he hsucceeds
  obtain ⟨x, hx, hrequest, hcharge⟩ := hredeems.of_ok
  have hmem : x ∈ s'.history.trace e.thread := htrace ▸ List.mem_cons_of_mem _ hx
  obtain ⟨e', he', _, rfl⟩ := Interface.History.mem_trace.mp hmem
  rw [hid] at hcharge
  rw [audience_of_charge haccounted hlater he' hcharge] at hrequest
  obtain ⟨_, hhash, horigin⟩ := JobSql.spend.inj (JobRequest.sql.inj hrequest)
  exact ⟨token, horigin ▸ htask, hhash.symm⟩

include hdisc

theorem honoured_settled :
  ∀ e ∈ s'.history, s.threads.length ≤ e.thread → ∀ token origin document,
    e.task = .redeem token origin document → hashToken token = g.tokenHash →
      ∀ r, answered e.exchange = some r →
        g.Settled origin document (s'.history.trace e.thread) r ∧
          (r.isOk = true → ¬ g.Closed s.state.clock)
  := by
  intro e he hthread token origin document htask hhash r hanswered
  obtain ⟨l, htrace, token', origin', document', htask', hredeems⟩ :=
    haccounted.replied e he r hanswered
  rw [htask] at htask'
  obtain ⟨rfl, rfl, rfl⟩ := Call.redeem.inj htask'
  obtain ⟨later, hhistory, hanswers, huncharged⟩ := hlater.history
  have hsince : ∀ x ∈ l, ∃ e ∈ later, e.exchange = x := fun x hx =>
    hdisc.event_since hhistory hthread (htrace ▸ List.mem_cons_of_mem _ hx)
  have hevents : ∀ x ∈ l, ∃ e ∈ s'.history, e.exchange = x := by
    intro x hx
    obtain ⟨e', he', rfl⟩ := hsince x hx
    exact ⟨e', hhistory ▸ List.mem_append_left _ he', rfl⟩
  rw [hhash] at hredeems
  have hsettled : g.Settled origin document l r := by
    apply hredeems.settled
    · intro x hx
      obtain ⟨e', he', rfl⟩ := hevents x hx
      exact haccounted.fares e' he'
    · intro x hx
      obtain ⟨e', he', rfl⟩ := hsince x hx
      exact hanswers e' he'
    · intro x hx document hcharge
      obtain ⟨e', he', rfl⟩ := hevents x hx
      exact audience_of_charge haccounted hlater he' hcharge
  constructor
  · rw [htrace]
    exact hsettled.cons_answer hanswered
  · intro hok hclosed
    cases r with
    | error e => cases hok
    | ok r =>
        obtain ⟨hid, _, hcharges, _⟩ := hsettled
        obtain ⟨x, hx, _, hcharge⟩ := hredeems.of_ok
        obtain ⟨e', he', rfl⟩ := hsince x hx
        rw [hid] at hcharge
        exact huncharged hclosed e' he' document hcharge

end Honoured

/-- In every run whose redemptions are recorded, every grant is honoured. -/
theorem grants_honoured {hashToken : String → String} {db : Db} (hgrants : ∀ g, ¬ g ∈ db.grants)
    (haccesses : db.accesses = []) {s s' : Reading}
    (hs : Reaches jobWorld (Call.program hashToken) Recorded (.initial db) s)
    (hs' : Reaches jobWorld (Call.program hashToken) Recorded s s') {g : Grant}
    (hg : g ∈ s.state.grants) :
  Honoured hashToken g s s'
  := by
  obtain ⟨hdisc, haccounted, _⟩ := accounted_reaches (Pool.initial_disciplined _ db)
    (accounted_initial hgrants haccesses) hs
  obtain ⟨_, haccounted', hlater⟩ := accounted_reaches hdisc haccounted hs'
  have hlater := hlater g hg
  constructor
  · exact honoured_budget haccounted' hlater
  · exact honoured_audience haccounted' hlater
  · obtain ⟨g', hg', hbecomes⟩ := hlater.becomes
    obtain ⟨_, _, _, _, _, _, _, hbudget⟩ := haccounted'.budget g' hg'
    exact ⟨g', hg', hbecomes, haccounted'.consistent g' hg', fun document => (hbudget document).2⟩
  · intro hclosed
    obtain ⟨later, hhistory, _, huncharged⟩ := hlater.history
    exact ⟨later, hhistory, huncharged hclosed⟩
  · exact honoured_settled hdisc haccounted' hlater
  · exact haccounted'.accesses

/-! ### A disclosure that cannot be logged -/

/-- An organisation with a posting, and an applicant. -/
def hiring : Db where
  clock := 0
  organisations :=
    [⟨1, "https://acme.example/users/hr", some "Acme", "hr"⟩,
      ⟨2, "https://home.example/users/ann", none, "ann"⟩]
  postings := [⟨3, 1, "Engineer", some 0⟩]
  applications := .empty
  grants := .empty
  accesses := []

/-- Every request is answered, but access is logged only if `logs`. -/
def answering (logs : Bool) : (q : JobRequest) → jobWorld.Choice q
  | .sql (.insertAccess _) => ⟨if logs then none else some "connection reset", 1, 0⟩
  | .sql _ => ⟨none, 1, 4⟩
  | .renderMarkup _ => .ok ""
  | .newUuid => (5 : Uuid)
  | .mintToken => "secret"
  | .utcNow => (0 : DateTime)
  | .respond _ => ()

def applying : List (Turn jobWorld Call) :=
  .start (.apply 2 3 "home.example" ⟨none, false⟩ none) ::
    List.replicate 7 (.exchange 0 (answering true))

/-- The employer reads the application. -/
def reading (logs : Bool) : List (Turn jobWorld Call) :=
  .start (.redeem "secret" "https://acme.example" .application) ::
    List.replicate 4 (.exchange 1 (answering logs))

/-- The application is read by the thread `1`, which is answered. -/
def isRead (e : Event) : Bool :=
  match e.task, answered e.exchange with
  | .redeem "secret" "https://acme.example" .application, some _ => e.thread == 1
  | _, _ => false

theorem of_isRead {e : Event} (h : isRead e = true) :
  e.task = .redeem "secret" "https://acme.example" .application ∧ e.thread = 1 ∧
    ∃ r, answered e.exchange = some r
  := by
  unfold isRead at h
  split at h
  · rename_i r htask hanswered
    exact ⟨htask, beq_iff_eq.mp h, r, hanswered⟩
  · cases h

/-- When the disclosure cannot be logged, the use has been charged and no row says so. -/
theorem disclosure_unlogged :
  ∃ s s', Reaches jobWorld (Call.program id) (fun _ _ _ _ _ => True) (.initial hiring) s ∧
    Reaches jobWorld (Call.program id) (fun _ _ _ _ _ => True) s s' ∧
    ∃ g ∈ s.state.grants, ¬ Honoured id g s s'
  := by
  have hplayed : ((Pool.play jobWorld (Call.program id) (fun _ _ _ _ _ => True) applying
      (.initial hiring)).bind fun s =>
        (s.play jobWorld (Call.program id) (fun _ _ _ _ _ => True) (reading false)).map fun s' =>
          decide (s.threads.length = 1 ∧ (∃ g ∈ s.state.grants.rows, g.tokenHash = "secret") ∧
            (∃ e ∈ s'.history, isRead e) ∧
            (s'.history.trace 1).filterMap charge = [(.application, 4)] ∧
            (s'.history.trace 1).filterMap logged = [])) = some true := by
    decide +kernel
  obtain ⟨s, hs, hrest⟩ := Option.bind_eq_some_iff.mp hplayed
  obtain ⟨s', hs', hdecided⟩ := Option.map_eq_some_iff.mp hrest
  obtain ⟨hlength, ⟨g, hg, hhash⟩, ⟨e, he, hread⟩, hcharged, hlogged⟩ := of_decide_eq_true hdecided
  refine ⟨s, s', Pool.reaches_of_play _ _ _ hs, Pool.reaches_of_play _ _ _ hs', g, hg, ?_⟩
  intro hhonoured
  obtain ⟨htask, hthread, r, hanswered⟩ := of_isRead hread
  obtain ⟨hsettled, _⟩ := hhonoured.settled e he (by omega) _ _ _ htask
    hhash.symm r hanswered
  rw [hthread] at hsettled
  cases r with
  | ok r =>
      have hrow := hsettled.2.2.2
      rw [hlogged] at hrow
      cases hrow
  | error e =>
      have hnone : (s'.history.trace 1).filterMap charge = [] := by
        cases e <;> exact hsettled.1
      rw [hcharged] at hnone
      cases hnone

/-- An application that is read, and the disclosure logged. -/
theorem grants_honoured_reading :
  ∃ s s', (∃ g ∈ s.state.grants, Honoured id g s s') ∧ ∃ e ∈ s'.history, isRead e
  := by
  have hplayed : ((Pool.play jobWorld (Call.program id) Recorded applying
      (.initial hiring)).bind fun s =>
        (s.play jobWorld (Call.program id) Recorded (reading true)).map fun s' =>
          decide ((∃ g ∈ s.state.grants.rows, g.tokenHash = "secret") ∧
            ∃ e ∈ s'.history, isRead e)) = some true := by
    decide +kernel
  obtain ⟨s, hs, hrest⟩ := Option.bind_eq_some_iff.mp hplayed
  obtain ⟨s', hs', hdecided⟩ := Option.map_eq_some_iff.mp hrest
  obtain ⟨⟨g, hg, _⟩, hread⟩ := of_decide_eq_true hdecided
  have hgrants : ∀ g, ¬ g ∈ hiring.grants := by simp [hiring]
  exact ⟨s, s', ⟨g, hg, grants_honoured hgrants rfl (Pool.reaches_of_play _ _ _ hs)
    (Pool.reaches_of_play _ _ _ hs') hg⟩, hread⟩

end Jobs
