import Noombat.Identity.Experience
import Noombat.Program.Past

/-!
# Confirmed employment

An edit reads a claim, merges in memory and writes all columns back, and an organisation's
answer builds the wire form from the claim it has read.  If each of them finds the claim as it
was read when it writes, then a confirmed claim was confirmed by the organisation it names, for
the employer it shows, with no withdrawal since; and the wire form of a claim states what its
columns do.
-/

namespace Identity.Employment

open Federation (Uuid DateTime NoombatError)
open Fallible Program Past

abbrev Event : Type :=
  Interface.Event Experiences Call

abbrev Claims : Type :=
  Pool Experiences Call Db

variable {writing : Writing}

/-! ### Events -/

/-- The claim that was read. -/
def readClaim : Experiences.Exchange → Option WorkExperience
  | ⟨.sql (.selectOwn _ _), .ok found⟩ => found
  | ⟨.sql (.selectNaming _ _), .ok found⟩ => found
  | _ => none

/-- The claim that was written. -/
def writtenClaim : Experiences.Exchange → Option WorkExperience
  | ⟨.sql (.insert _), .ok r⟩ => some r
  | ⟨.sql (.update _ _ _), .ok r⟩ => some r
  | ⟨.sql (.answer _ _ _), .ok r⟩ => some r
  | _ => none

/-- An organisation withdrew its confirmation of a claim. -/
def withdraws (id : Uuid) : Experiences.Exchange → Bool
  | ⟨.sql (.answer id' _ verdict), .ok _⟩ => id' == id && verdict.confirmedAt.isNone
  | _ => false

/-- The employer that a claim names. -/
def WorkExperience.employer (r : WorkExperience) : String × Option Uuid :=
  (r.organization, r.organizationId)

/-- What a claim says: the employer, the title and the dates. -/
def WorkExperience.claimed (r : WorkExperience) :
    (String × Option Uuid) × String × NaiveDate × Option NaiveDate :=
  (r.employer, r.title, r.startDate, r.endDate)

section Confirmation

variable {β : Type} [DecidableEq β] (view : WorkExperience → β) (r : WorkExperience)

/-- The organisation that a claim names confirmed it, as it is now with regard to `view`. -/
def confirms (e : Event) : Bool :=
  match e.task with
  | .confirm id organizationId via =>
      id == r.id && r.organizationId == some organizationId &&
        r.organizationConfirmedVia == some via.asStr &&
        (writtenClaim e.exchange).any fun r' =>
          r'.id == r.id && view r' == view r &&
            r'.organizationConfirmedAt == r.organizationConfirmedAt
  | _ => false

/-- A claim was written otherwise than it is now with regard to `view`, or its confirmation was
withdrawn. -/
def disturbs (e : Event) : Bool :=
  withdraws r.id e.exchange ||
    (writtenClaim e.exchange).any fun r' => r'.id == r.id && view r' != view r

/-- A claim that is confirmed was confirmed by the organisation it names, as it is now with
regard to `view`, and that has not changed since nor has the confirmation been withdrawn. -/
def Meant (h : Experiences.History Call) : Prop :=
  r.organizationConfirmedAt.isSome = true →
    Since (fun e => disturbs view r e = true) (Now fun e => confirms view r e = true) h

instance (h : Experiences.History Call) : Decidable (Meant view r h) :=
  inferInstanceAs (Decidable (_ → _))

end Confirmation

/-- The wire form of a claim states what its columns do, up to the precision of the time. -/
def WorkExperienceRow.StatesItself (writing : Writing) (db : Db) (r : WorkExperienceRow) : Prop :=
  ∃ confirmedAt : Option DateTime, confirmedAt.map stored = r.organizationConfirmedAt ∧
    r.apObject = buildWorkExperienceApObject writing r.id r.title r.organization
      (r.organizationId.bind db.apId) confirmedAt r.startDate r.endDate r.descriptionHtml

/-- The claims that the thread `i` has read are stored as it has read them. -/
def AsRead (i : Nat) (s : Claims) : Prop :=
  ∀ x ∈ s.history.trace i, ∀ r ∈ readClaim x,
    ∃ r' ∈ s.state.experiences.rows, r'.toWorkExperience = r

instance (i : Nat) (s : Claims) : Decidable (AsRead i s) :=
  inferInstanceAs (Decidable (∀ x ∈ _, _))

/-- A claim that an edit or an answer writes is as its call has read it. -/
def Uncrossed : StepCondition experienceWorld Call
  | i, _, .sql (.update _ _ _), c, s => Option.isNone c = true → AsRead i s
  | i, _, .sql (.answer _ _ _), c, s => Option.isNone c = true → AsRead i s
  | _, _, _, _, _ => True

instance Uncrossed.decidable : ∀ (i : Nat) (t : Call) (q : ExperienceRequest)
    (c : experienceWorld.Choice q) (s : Claims), Decidable (Uncrossed i t q c s)
  | i, _, .sql (.update _ _ _), c, s =>
      inferInstanceAs (Decidable (Option.isNone c = true → AsRead i s))
  | i, _, .sql (.answer _ _ _), c, s =>
      inferInstanceAs (Decidable (Option.isNone c = true → AsRead i s))
  | _, _, .sql (.selectOwn _ _), _, _ => isTrue trivial
  | _, _, .sql (.selectNaming _ _), _, _ => isTrue trivial
  | _, _, .sql (.selectApId _), _, _ => isTrue trivial
  | _, _, .sql (.insert _), _, _ => isTrue trivial
  | _, _, .sql (.delete _ _), _, _ => isTrue trivial
  | _, _, .newUuid, _, _ => isTrue trivial
  | _, _, .utcNow, _, _ => isTrue trivial
  | _, _, .render _, _, _ => isTrue trivial

/-! ### What the calls ask -/

/-- The URI of the organisation that a claim names has been looked up. -/
def LookedUp (l : List Experiences.Exchange) (orgApId : Option String) : Option Uuid → Prop
  | none => orgApId = none
  | some id => ⟨.sql (.selectApId id), .ok orgApId⟩ ∈ l

/-- The call in which an organisation answers a claim. -/
def answering (id organizationId : Uuid) : Option ConfirmedVia → Call
  | some via => .confirm id organizationId via
  | none => .withdraw id organizationId

/-- What the exchanges of a call are, when it makes a request: what it writes is made from what
it has read and looked up. -/
def Asked (writing : Writing) (t : Call) (l : List Experiences.Exchange) :
    ExperienceRequest → Prop
  | .sql (.insert row) => ∃ params id actorId desc orgApId,
      row = NewWorkExperience.row writing params id actorId desc orgApId ∧
        LookedUp l orgApId row.organizationId
  | .sql (.update id actorId edit) => ∃ params current desc orgApId,
      t = .update actorId id params ∧ ⟨.sql (.selectOwn id actorId), .ok (some current)⟩ ∈ l ∧
        edit = UpdateWorkExperience.merge writing params current desc orgApId ∧
        LookedUp l orgApId edit.organizationId
  | .sql (.answer id organizationId verdict) => ∃ current orgApId via confirmedAt,
      t = answering id organizationId via ∧ via.isSome = Option.isSome confirmedAt ∧
        ⟨.sql (.selectNaming id organizationId), .ok (some current)⟩ ∈ l ∧
        verdict = verdictOn writing current orgApId via confirmedAt ∧
        LookedUp l orgApId (some organizationId)
  | _ => True

theorem asks_organizationApId {t : Call} {o : Option Uuid} {l : List Experiences.Exchange}
    {Post : Except NoombatError (Option String) → List Experiences.Exchange → Prop}
    (herror : ∀ e l', Post (.error e) l')
    (hPost : ∀ orgApId l', (∀ x ∈ l, x ∈ l') → LookedUp l' orgApId o → Post (.ok orgApId) l') :
  Asks (Asked writing t) Post (organizationApId o).run l
  := by
  cases o with
  | none =>
      rw [organizationApId, asks_run_pure]
      apply hPost none l (fun _ hx => hx) rfl
  | some id =>
      apply (asks_run_ask (ExperienceRequest.sql (.selectApId id)) _ l).mpr
      constructor
      · trivial
      · rintro (e | orgApId)
        · apply herror
        · apply hPost orgApId _ (fun _ hx => List.mem_cons_of_mem _ hx) List.mem_cons_self

theorem asks_renderOptionalMarkdown {t : Call} {md : Option String}
    {l : List Experiences.Exchange}
    {Post : Except NoombatError (Option String × Option String) →
      List Experiences.Exchange → Prop}
    (herror : ∀ e l', Post (.error e) l')
    (hPost : ∀ desc l', (∀ x ∈ l, x ∈ l') → Post (.ok desc) l') :
  Asks (Asked writing t) Post (renderOptionalMarkdown md).run l
  := by
  cases md with
  | none =>
      rw [renderOptionalMarkdown, asks_run_pure]
      apply hPost _ l fun _ hx => hx
  | some md =>
      rw [renderOptionalMarkdown, asks_run_bind]
      apply (asks_run_ask (ExperienceRequest.render md) _ l).mpr
      constructor
      · trivial
      · rintro (e | html)
        · apply herror
        · rw [onExcept_ok, asks_run_pure]
          apply hPost _ _ fun _ hx => List.mem_cons_of_mem _ hx

theorem asks_createWorkExperience (t : Call) (actorId : Uuid) (params : NewWorkExperience) :
  Asks (Asked writing t) (fun _ _ => True) (createWorkExperience writing actorId params).run []
  := by
  rw [createWorkExperience, asks_run_bind]
  apply (asks_run_ask ExperienceRequest.newUuid _ []).mpr
  constructor
  · trivial
  rintro (e | id)
  · trivial
  rw [onExcept_ok, asks_run_bind, asks_run_ofExcept]
  cases validateSectionVisibility (params.visibility.getD "public") with
  | error e => trivial
  | ok _ =>
      rw [onExcept_ok, asks_run_bind]
      apply asks_renderOptionalMarkdown
      · intro e l'
        trivial
      intro desc l' _
      rw [onExcept_ok, asks_run_bind]
      apply asks_organizationApId
      · intro e l'
        trivial
      intro orgApId l'' _ hlooked
      apply (asks_run_ask (ExperienceRequest.sql (.insert _)) _ l'').mpr
      constructor
      · exact ⟨params, id, actorId, desc, orgApId, rfl, hlooked⟩
      · intro r
        trivial

theorem asks_deleteWorkExperience (t : Call) (actorId id : Uuid) :
  Asks (Asked writing t) (fun _ _ => True) (deleteWorkExperience actorId id).run []
  := by
  rw [deleteWorkExperience, asks_run_bind]
  apply (asks_run_ask (ExperienceRequest.sql (.delete id actorId)) _ []).mpr
  constructor
  · trivial
  rintro (e | affected)
  · trivial
  rw [onExcept_ok]
  split
  · rw [asks_run_throw]
    trivial
  · rw [asks_run_pure]
    trivial

theorem asks_updateWorkExperience (actorId id : Uuid) (params : UpdateWorkExperience) :
  Asks (Asked writing (.update actorId id params)) (fun _ _ => True)
    (updateWorkExperience writing actorId id params).run []
  := by
  rw [updateWorkExperience, asks_run_bind, asks_run_ofExcept]
  cases params.visibility.elim (.ok ()) validateSectionVisibility with
  | error e => trivial
  | ok _ =>
      rw [onExcept_ok, asks_run_bind]
      apply (asks_run_ask (ExperienceRequest.sql (.selectOwn id actorId)) _ []).mpr
      constructor
      · trivial
      rintro (e | _ | current)
      · trivial
      · trivial
      apply (asks_run_bind _ _ _ _).mpr
      rw [okOr, asks_run_pure, onExcept_ok, asks_run_bind]
      apply asks_renderOptionalMarkdown
      · intro e l'
        trivial
      intro desc l' hl'
      rw [onExcept_ok, asks_run_bind]
      apply asks_organizationApId
      · intro e l''
        trivial
      intro orgApId l'' hl'' hlooked
      apply (asks_run_ask (ExperienceRequest.sql (.update id actorId _)) _ l'').mpr
      constructor
      · exact ⟨params, current, desc, orgApId, rfl, hl'' _ (hl' _ List.mem_cons_self), rfl, hlooked⟩
      · intro r
        trivial

theorem asks_setEmploymentConfirmation (id organizationId : Uuid) (via : Option ConfirmedVia) :
  Asks (Asked writing (answering id organizationId via)) (fun _ _ => True)
    (setEmploymentConfirmation writing id organizationId via).run []
  := by
  rw [setEmploymentConfirmation, asks_run_bind]
  apply (asks_run_ask (ExperienceRequest.sql (.selectNaming id organizationId)) _ []).mpr
  constructor
  · trivial
  rintro (e | _ | current)
  · trivial
  · trivial
  apply (asks_run_bind _ _ _ _).mpr
  rw [okOr, asks_run_pure, onExcept_ok, asks_run_bind]
  have hanswer : ∀ (confirmedAt : Option DateTime) (l : List Experiences.Exchange),
      via.isSome = confirmedAt.isSome →
      ⟨.sql (.selectNaming id organizationId), .ok (some current)⟩ ∈ l →
      Asks (Asked writing (answering id organizationId via)) (fun _ _ => True)
        (organizationApId (some organizationId) >>= fun orgApId =>
          sql (.answer id organizationId
            (verdictOn writing current orgApId via confirmedAt))).run l := by
    intro confirmedAt l htime hread
    rw [asks_run_bind]
    apply asks_organizationApId
    · intro e l'
      trivial
    intro orgApId l' hl' hlooked
    apply (asks_run_ask (ExperienceRequest.sql (.answer id organizationId _)) _ l').mpr
    constructor
    · exact ⟨current, orgApId, via, confirmedAt, rfl, htime, hl' _ hread, rfl, hlooked⟩
    · intro r
      trivial
  cases via with
  | none =>
      rw [confirmationTime, asks_run_pure, onExcept_ok]
      apply hanswer none _ rfl List.mem_cons_self
  | some via =>
      rw [confirmationTime, asks_run_bind]
      apply (asks_run_ask ExperienceRequest.utcNow _ _).mpr
      constructor
      · trivial
      rintro (e | now)
      · trivial
      rw [onExcept_ok, asks_run_pure, onExcept_ok]
      apply hanswer (some now) _ rfl (List.mem_cons_of_mem _ List.mem_cons_self)

theorem asks_program (t : Call) :
  Asks (Asked writing t) (fun _ _ => True) (t.program writing) []
  := by
  cases t with
  | create actorId params =>
      rw [Call.program, asks_bind]
      apply asks_createWorkExperience
  | delete actorId id =>
      rw [Call.program, asks_bind]
      apply asks_deleteWorkExperience
  | update actorId id params =>
      rw [Call.program, asks_bind]
      apply asks_updateWorkExperience
  | confirm id organizationId via =>
      rw [Call.program, asks_bind]
      apply asks_setEmploymentConfirmation id organizationId (some via)
  | withdraw id organizationId =>
      rw [Call.program, asks_bind]
      apply asks_setEmploymentConfirmation id organizationId none

/-! ### What a statement does to claims -/

theorem Db.eq_of_id {db : Db} {r r' : WorkExperienceRow} (hr : r ∈ db.experiences)
    (hr' : r' ∈ db.experiences) (h : r.id = r'.id) :
  r = r'
  := Table.eq_of_not_apart hr hr' fun hapart => hapart h

/-- How a claim that is there after an exchange came to be: it was there before and was not
written, or it was made, edited or answered. -/
inductive Moves (db : Db) (r' : WorkExperienceRow) : Experiences.Exchange → Prop
  | stays {x : Experiences.Exchange} : r' ∈ db.experiences →
      (∀ r, writtenClaim x = some r → r.id ≠ r'.id) → withdraws r'.id x = false → Moves db r' x
  | made : Moves db r' ⟨.sql (.insert r'), .ok r'.toWorkExperience⟩
  | edited {r : WorkExperienceRow} {actorId : Uuid} {edit : Edit} : r ∈ db.experiences →
      r' = edit.apply r → Moves db r' ⟨.sql (.update r.id actorId edit), .ok r'.toWorkExperience⟩
  | answered {r : WorkExperienceRow} {organizationId : Uuid} {verdict : Verdict} :
      r ∈ db.experiences → r.organizationId = some organizationId → r' = verdict.apply r →
      Moves db r' ⟨.sql (.answer r.id organizationId verdict), .ok r'.toWorkExperience⟩

/-- A statement that changes the one row with an identifier fails, or returns that row as it is
then. -/
theorem updateReturning_cases {p : WorkExperienceRow → Bool}
    {f : WorkExperienceRow → WorkExperienceRow} (hf : ∀ r, (f r).id = r.id) {id : Uuid}
    (hp : ∀ r, p r = true → r.id = id) (db : Db) :
  (∃ e, db.updateReturning p f hf = (.error e, db)) ∨
    ∃ r ∈ db.experiences, p r = true ∧
      (db.updateReturning p f hf).1 = .ok (f r).toWorkExperience ∧
      (db.updateReturning p f hf).2.actors = db.actors ∧
      ∀ r' ∈ (db.updateReturning p f hf).2.experiences,
        r' = f r ∨ r' ∈ db.experiences ∧ r'.id ≠ id
  := by
  rw [Db.updateReturning]
  split
  · exact .inl ⟨_, rfl⟩
  rename_i r hfound
  split
  · right
    have hr := Table.mem_of_find hfound
    have hpr := Table.satisfies_of_find hfound
    refine ⟨r, hr, hpr, rfl, rfl, ?_⟩
    intro r' hr'
    obtain ⟨r₀, hr₀, hr'⟩ := List.mem_map.mp hr'
    split at hr'
    · rename_i hp₀
      obtain rfl := Db.eq_of_id hr hr₀ ((hp r hpr).trans (hp r₀ hp₀).symm)
      exact .inl hr'.symm
    · rename_i hp₀
      subst hr'
      right
      constructor
      · exact hr₀
      · intro hid
        obtain rfl := Db.eq_of_id hr hr₀ ((hp r hpr).trans hid.symm)
        exact hp₀ hpr
  · exact .inl ⟨_, rfl⟩

theorem id_of_isOwn {id actorId : Uuid} {r : WorkExperienceRow} (h : isOwn id actorId r = true) :
  r.id = id
  := by
  simp only [isOwn, Bool.and_eq_true, beq_iff_eq] at h
  exact h.1

theorem of_isNaming {id organizationId : Uuid} {r : WorkExperienceRow}
    (h : isNaming id organizationId r = true) :
  r.id = id ∧ r.organizationId = some organizationId
  := by
  simpa [isNaming] using h

theorem exec_actors (q : ExperienceRequest) (c : experienceWorld.Choice q) (db : Db) :
  (experienceWorld.exec q c db).2.actors = db.actors
  := by
  cases q with
  | sql st =>
      cases c with
      | some e => rfl
      | none =>
          cases st with
          | insert row =>
              simp only [experienceWorld, ExperienceSql.exec]
              split
              · split <;> rfl
              · rfl
          | update id actorId edit =>
              rcases updateReturning_cases (p := isOwn id actorId) (f := edit.apply)
                (fun _ => rfl) (fun r => id_of_isOwn) db with ⟨e, h⟩ | ⟨r, _, _, _, h, _⟩
              · exact congrArg (·.2.actors) h
              · exact h
          | answer id organizationId verdict =>
              rcases updateReturning_cases (p := isNaming id organizationId) (f := verdict.apply)
                (fun _ => rfl) (fun r h => (of_isNaming h).1) db with
                ⟨e, h⟩ | ⟨r, _, _, _, h, _⟩
              · exact congrArg (·.2.actors) h
              · exact h
          | _ => rfl
  | _ => rfl

theorem exec_moves (q : ExperienceRequest) (c : experienceWorld.Choice q) (db : Db)
    {r' : WorkExperienceRow} (hr' : r' ∈ (experienceWorld.exec q c db).2.experiences) :
  Moves db r' ⟨q, (experienceWorld.exec q c db).1⟩
  := by
  cases q with
  | sql st =>
      cases c with
      | some e =>
          apply Moves.stays hr'
          · intro r h
            cases st <;> cases h
          · cases st <;> rfl
      | none =>
          cases st with
          | insert row =>
              simp only [experienceWorld, ExperienceSql.exec] at hr' ⊢
              split at hr'
              · rename_i hadmissible
                rw [if_pos hadmissible]
                split at hr'
                · rename_i experiences hinsert
                  rcases (Table.mem_of_insert hinsert).mp hr' with rfl | hr'
                  · exact .made
                  · apply Moves.stays hr' _ rfl
                    intro r h
                    cases h
                    exact Table.apart_of_insert hinsert hr'
                · rename_i hinsert
                  apply Moves.stays hr' _ rfl
                  intro r h
                  cases h
              · rename_i hadmissible
                rw [if_neg hadmissible]
                apply Moves.stays hr' _ rfl
                intro r h
                cases h
          | update id actorId edit =>
              rcases updateReturning_cases (p := isOwn id actorId) (f := edit.apply)
                (fun _ => rfl) (fun r => id_of_isOwn) db with
                ⟨e, h⟩ | ⟨r, hr, hown, hanswer, _, hrows⟩
              · simp only [experienceWorld, ExperienceSql.exec, h] at hr' ⊢
                apply Moves.stays hr' _ rfl
                intro r h
                cases h
              · simp only [experienceWorld, ExperienceSql.exec, hanswer] at hr' ⊢
                obtain rfl := id_of_isOwn hown
                rcases hrows r' hr' with rfl | ⟨hr', hid⟩
                · exact .edited hr rfl
                · apply Moves.stays hr' _ rfl
                  intro r₀ h
                  cases h
                  exact Ne.symm hid
          | answer id organizationId verdict =>
              rcases updateReturning_cases (p := isNaming id organizationId) (f := verdict.apply)
                (fun _ => rfl) (fun r h => (of_isNaming h).1) db with
                ⟨e, h⟩ | ⟨r, hr, hnaming, hanswer, _, hrows⟩
              · simp only [experienceWorld, ExperienceSql.exec, h] at hr' ⊢
                apply Moves.stays hr' _ rfl
                intro r h
                cases h
              · simp only [experienceWorld, ExperienceSql.exec, hanswer] at hr' ⊢
                obtain ⟨rfl, hnamed⟩ := of_isNaming hnaming
                rcases hrows r' hr' with rfl | ⟨hr', hid⟩
                · exact .answered hr hnamed rfl
                · apply Moves.stays hr'
                  · intro r₀ h
                    cases h
                    exact Ne.symm hid
                  · simp [withdraws, Ne.symm hid]
          | delete id actorId =>
              apply Moves.stays (Table.mem_delete.mp hr').1 _ rfl
              intro r h
              cases h
          | _ =>
              apply Moves.stays hr' _ rfl
              intro r h
              cases h
  | _ =>
      apply Moves.stays hr' _ rfl
      intro r h
      cases h

/-! ### The invariant -/

/-- The exchange reads what there is: claims with the identifier asked for, and the URIs that
actors have. -/
def Truthful (actors : List (Uuid × String)) : Experiences.Exchange → Prop
  | ⟨.sql (.selectOwn id _), .ok found⟩ => ∀ r, found = some r → r.id = id
  | ⟨.sql (.selectNaming id _), .ok found⟩ => ∀ r, found = some r → r.id = id
  | ⟨.sql (.selectApId id), .ok apId⟩ => apId = actors.lookup id
  | _ => True

theorem exec_truthful (q : ExperienceRequest) (c : experienceWorld.Choice q) (db : Db) :
  Truthful db.actors ⟨q, (experienceWorld.exec q c db).1⟩
  := by
  cases q with
  | sql st =>
      cases c with
      | some e => cases st <;> trivial
      | none =>
          cases st with
          | selectOwn id actorId =>
              intro r h
              obtain ⟨row, hfound, rfl⟩ := Option.map_eq_some_iff.mp h
              apply id_of_isOwn (Table.satisfies_of_find hfound)
          | selectNaming id organizationId =>
              intro r h
              obtain ⟨row, hfound, rfl⟩ := Option.map_eq_some_iff.mp h
              apply (of_isNaming (Table.satisfies_of_find hfound)).1
          | selectApId id => rfl
          | _ => simp only [Truthful]
  | _ => trivial

/-- What holds of every pool whose steps are uncrossed. -/
structure Tracked (writing : Writing) (db : Db) (s : Claims) : Prop where
  actors : s.state.actors = db.actors
  truthful : ∀ e ∈ s.history, Truthful db.actors e.exchange
  meant : ∀ r ∈ s.state.experiences, Meant WorkExperience.employer r.toWorkExperience s.history
  states : ∀ r ∈ s.state.experiences, r.StatesItself writing db

theorem stored_stored (t : DateTime) :
  stored (stored t) = stored t
  := by
  simp only [stored, Int.mul_ediv_cancel _ (show (1000 : Int) ≠ 0 by decide)]

/-- A claim stores its confirmation as it is. -/
theorem WorkExperienceRow.StatesItself.map_stored {db : Db} {r : WorkExperienceRow}
    (h : r.StatesItself writing db) :
  r.organizationConfirmedAt.map stored = r.organizationConfirmedAt
  := by
  obtain ⟨confirmedAt, hconfirmed, _⟩ := h
  rw [← hconfirmed, Option.map_map]
  congr 1
  funext t
  apply stored_stored

/-- What was looked up is the URI that there is. -/
theorem LookedUp.apId_eq {db : Db} {l : List Experiences.Exchange} {orgApId : Option String}
    {o : Option Uuid} (h : LookedUp l orgApId o) (hl : ∀ x ∈ l, Truthful db.actors x) :
  orgApId = o.bind db.apId
  := by
  cases o with
  | none => exact h
  | some id => exact hl _ h

section Meaning

variable {r r' : WorkExperience} {e : Event} {h : Experiences.History Call}

/-- A claim that keeps its employer and its confirmation is confirmed by the same events. -/
theorem confirms_congr (hid : r'.id = r.id) (hemployer : r'.employer = r.employer)
    (hat : r'.organizationConfirmedAt = r.organizationConfirmedAt)
    (hvia : r'.organizationConfirmedVia = r.organizationConfirmedVia) :
  confirms WorkExperience.employer r' = confirms WorkExperience.employer r
  := by
  have hreference : r'.organizationId = r.organizationId := congrArg Prod.snd hemployer
  funext e
  simp only [confirms, hid, hemployer, hat, hvia, hreference]

theorem disturbs_congr (hid : r'.id = r.id) (hemployer : r'.employer = r.employer) :
  disturbs WorkExperience.employer r' = disturbs WorkExperience.employer r
  := by
  funext e
  simp only [disturbs, hid, hemployer]

theorem Meant.congr (hmeant : Meant WorkExperience.employer r h) (hid : r'.id = r.id)
    (hemployer : r'.employer = r.employer)
    (hat : r'.organizationConfirmedAt = r.organizationConfirmedAt)
    (hvia : r'.organizationConfirmedVia = r.organizationConfirmedVia) :
  Meant WorkExperience.employer r' h
  := by
  rw [Meant, hat, confirms_congr hid hemployer hat hvia, disturbs_congr hid hemployer]
  exact hmeant

/-- What does not disturb a claim leaves its confirmation standing. -/
theorem Meant.cons (hmeant : Meant WorkExperience.employer r h)
    (hdisturbs : disturbs WorkExperience.employer r e = false) :
  Meant WorkExperience.employer r (e :: h)
  := by
  intro hconfirmed
  apply (hmeant hconfirmed).cons
  rw [hdisturbs]
  apply Bool.false_ne_true

theorem meant_of_none (hnone : r.organizationConfirmedAt = none) :
  Meant WorkExperience.employer r h
  := by
  intro hconfirmed
  rw [hnone] at hconfirmed
  cases hconfirmed

end Meaning

section Preserved

variable {db : Db} {s : Claims} (htracked : Tracked writing db s) {i : Nat} {t : Call}

include htracked

theorem Tracked.trace_truthful :
  ∀ x ∈ s.history.trace i, Truthful db.actors x
  := by
  intro x hx
  obtain ⟨e, he, _, rfl⟩ := Interface.History.mem_trace.mp hx
  apply htracked.truthful e he

omit htracked in
/-- The claim that a call has read under the identifier of a row is that row, if it is stored as
it was read. -/
theorem read_eq {r : WorkExperienceRow} {current : WorkExperience} {x : Experiences.Exchange}
    (hr : r ∈ s.state.experiences) (hx : x ∈ s.history.trace i)
    (hread : readClaim x = some current) (hasRead : AsRead i s) (hid : current.id = r.id) :
  current = r.toWorkExperience
  := by
  obtain ⟨r', hr', rfl⟩ := hasRead x hx current hread
  rw [Db.eq_of_id hr' hr hid]

/-- An edit of a claim that finds it as it was read keeps its confirmation only with the
employer. -/
theorem tracked_edited {r : WorkExperienceRow} {actorId : Uuid} {edit : Edit}
    (hr : r ∈ s.state.experiences)
    (hasked : Asked writing t (s.history.trace i) (.sql (.update r.id actorId edit)))
    (hasRead : AsRead i s) :
  Meant WorkExperience.employer (edit.apply r).toWorkExperience
      (⟨i, t, .sql (.update r.id actorId edit), .ok (edit.apply r).toWorkExperience⟩ :: s.history) ∧
    (edit.apply r).StatesItself writing db
  := by
  obtain ⟨params, current, desc, orgApId, rfl, hread, rfl, hlooked⟩ := hasked
  have hid : current.id = r.id := htracked.trace_truthful _ hread current rfl
  obtain rfl := read_eq hr hread rfl hasRead hid
  have hstored := (htracked.states r hr).map_stored
  constructor
  · cases hchanged : params.changesEmployer r.toWorkExperience with
    | true =>
        apply meant_of_none
        simp [Edit.apply, UpdateWorkExperience.merge, hchanged]
    | false =>
        have hemployer : ((params.merge writing r.toWorkExperience desc orgApId).apply
            r).employer = r.employer := by
          simpa [UpdateWorkExperience.changesEmployer, WorkExperience.employer, Edit.apply,
            UpdateWorkExperience.merge] using hchanged
        have hat : ((params.merge writing r.toWorkExperience desc orgApId).apply
            r).organizationConfirmedAt = r.organizationConfirmedAt := by
          simpa [Edit.apply, UpdateWorkExperience.merge, hchanged] using hstored
        have hvia : ((params.merge writing r.toWorkExperience desc orgApId).apply
            r).organizationConfirmedVia = r.organizationConfirmedVia := by
          simp [Edit.apply, UpdateWorkExperience.merge, hchanged]
        apply Meant.cons
        · apply Meant.congr (htracked.meant r hr) _ hemployer hat hvia
          rfl
        · simp [disturbs, withdraws, writtenClaim]
  · refine ⟨_, rfl, ?_⟩
    rw [hlooked.apId_eq htracked.trace_truthful]
    rfl

/-- An organisation's answer to a claim that finds it as it was read confirms it as it is, or
leaves it unconfirmed. -/
theorem tracked_answered {r : WorkExperienceRow} {organizationId : Uuid} {verdict : Verdict}
    (hr : r ∈ s.state.experiences) (hnames : r.organizationId = some organizationId)
    (hasked : Asked writing t (s.history.trace i) (.sql (.answer r.id organizationId verdict)))
    (hasRead : AsRead i s) :
  Meant WorkExperience.employer (verdict.apply r).toWorkExperience
      (⟨i, t, .sql (.answer r.id organizationId verdict), .ok (verdict.apply r).toWorkExperience⟩ ::
        s.history) ∧
    (verdict.apply r).StatesItself writing db
  := by
  obtain ⟨current, orgApId, via, confirmedAt, rfl, htime, hread, rfl, hlooked⟩ := hasked
  have hid : current.id = r.id := htracked.trace_truthful _ hread current rfl
  obtain rfl := read_eq hr hread rfl hasRead hid
  constructor
  · cases via with
    | none =>
        apply meant_of_none
        have hnone : confirmedAt = none := by simpa using htime
        simp [Verdict.apply, verdictOn, hnone]
    | some via =>
        intro _
        apply since_of_now
        simp [confirms, answering, writtenClaim, Verdict.apply, verdictOn, hnames]
  · refine ⟨confirmedAt, rfl, ?_⟩
    have horgApId := hlooked.apId_eq htracked.trace_truthful
    rw [← hnames] at horgApId
    rw [horgApId]
    rfl

theorem tracked_exchange {q : ExperienceRequest} {c : experienceWorld.Choice q}
    {k : Experiences.Answer q → Program Experiences Unit}
    (hasked : Asked writing t (s.history.trace i) q) (hC : Uncrossed i t q c s) :
  Tracked writing db (s.exchange experienceWorld i t q k c)
  := by
  have hsound : ∀ r ∈ (experienceWorld.exec q c s.state).2.experiences,
      Meant WorkExperience.employer r.toWorkExperience
        (s.exchange experienceWorld i t q k c).history ∧ r.StatesItself writing db := by
    intro r' hr'
    have hmoves := exec_moves q c s.state hr'
    simp only [Pool.exchange]
    generalize hanswer : (experienceWorld.exec q c s.state).1 = answer at hmoves ⊢
    cases hmoves with
    | stays hr hwritten hwithdraws =>
        constructor
        · apply (htracked.meant r' hr).cons
          rw [disturbs, hwithdraws, Bool.false_or, Option.any_eq_false]
          intro r h
          simp [hwritten r h]
        · apply htracked.states r' hr
    | made =>
        obtain ⟨params, id, actorId, desc, orgApId, rfl, hlooked⟩ := hasked
        constructor
        · apply meant_of_none rfl
        · refine ⟨none, rfl, ?_⟩
          rw [← hlooked.apId_eq htracked.trace_truthful]
          rfl
    | edited hr hedit =>
        subst hedit
        apply tracked_edited htracked hr hasked
        apply hC
        cases c with
        | none => rfl
        | some e => cases hanswer
    | answered hr hnames hverdict =>
        subst hverdict
        apply tracked_answered htracked hr hnames hasked
        apply hC
        cases c with
        | none => rfl
        | some e => cases hanswer
  constructor
  · rw [← htracked.actors]
    apply exec_actors
  · intro e he
    rcases List.mem_cons.mp he with rfl | he
    · rw [← htracked.actors]
      apply exec_truthful
    · apply htracked.truthful e he
  · intro r hr
    apply (hsound r hr).1
  · intro r hr
    apply (hsound r hr).2

end Preserved

theorem tracked_initial (actors : List (Uuid × String)) :
  Tracked writing ⟨actors, .empty⟩ (.initial ⟨actors, .empty⟩)
  := by
  constructor
  · rfl
  · intro e he
    cases he
  · intro r hr
    cases hr
  · intro r hr
    cases hr

/-- If every edit and every answer of an organisation finds the claim as its call has read it,
then in every state a confirmed claim was confirmed by the organisation it names, for the
employer it shows, its employer has not changed since nor has the confirmation been withdrawn,
and the wire form of a claim states what its columns do. -/
theorem employment_confirmed (writing : Writing) (actors : List (Uuid × String)) (s : Claims)
    (h : Reaches experienceWorld (Call.program writing) Uncrossed (.initial ⟨actors, .empty⟩) s)
    (r : WorkExperienceRow) (hr : r ∈ s.state.experiences) :
  Meant WorkExperience.employer r.toWorkExperience s.history ∧ r.StatesItself writing s.state
  := by
  have htracked : Tracked writing ⟨actors, .empty⟩ s := by
    apply (Step.inv (Tracked writing ⟨actors, .empty⟩) asks_program _ _
      (Pool.initial_disciplined (Asked writing) _) (tracked_initial actors) h).2
    · intro s t hs
      exact ⟨hs.actors, hs.truthful, hs.meant, hs.states⟩
    · intro s i t q k c _ hs _ hasked hC
      apply tracked_exchange hs hasked hC
  constructor
  · apply htracked.meant r hr
  · obtain ⟨confirmedAt, hconfirmed, hobject⟩ := htracked.states r hr
    refine ⟨confirmedAt, hconfirmed, ?_⟩
    simp only [hobject, Db.apId, htracked.actors]

/-! ### Edits that keep a confirmation -/

/-- How the identifier, the day and the moment below are written. -/
def Writing.plain : Writing where
  uuid _ := "00000000-0000-0000-0000-000000000007"
  date _ := "2024-01-01"
  rfc3339 _ := "2024-01-01T00:00:00+00:00"

/-- What the environment answers: no statement fails. -/
def plainly : (q : ExperienceRequest) → experienceWorld.Choice q
  | .sql _ => none
  | .newUuid => (7 : Nat)
  | .utcNow => (1704067200000000000 : Int)
  | .render md => .ok md

/-- The thread `i` makes its next `n` requests. -/
def turns (i n : Nat) : List (Turn experienceWorld Call) :=
  List.replicate n (.exchange i plainly)

/-- An individual, and an organisation. -/
def acme : List (Uuid × String) :=
  [(1, "https://h.ex/users/al"), (2, "https://h.ex/users/acme")]

/-- Al claims to be an engineer at Acme, and Acme confirms it. -/
def confirmed : List (Turn experienceWorld Call) :=
  .start (.create 1 ⟨"Engineer", "Acme", some 2, 19723, none, none, none, none⟩) :: turns 0 3 ++
    .start (.confirm 7 2 .organisation) :: turns 1 4

/-- Al edits the title of the claim. -/
def retitled : List (Turn experienceWorld Call) :=
  .start (.update 1 7 ⟨some "Director", none, none, none, none, none, none, none⟩) :: turns 2 3

/-- Al edits the description of the claim. -/
def redescribed : List (Turn experienceWorld Call) :=
  .start (.update 1 7 ⟨none, none, none, none, none, some (some "Valves."), none, none⟩) ::
    turns 2 4

/-- Acme withdraws its confirmation while Al edits the description. -/
def crossing : List (Turn experienceWorld Call) :=
  .start (.update 1 7 ⟨none, none, none, none, none, some (some "Valves."), none, none⟩) ::
    turns 2 1 ++ .start (.withdraw 7 2) :: turns 3 3 ++ turns 2 3

/-- A claim whose title was edited stays confirmed, and so does one whose confirmation was
withdrawn while it was edited. -/
theorem confirmation_outlived :
  (∃ s, Reaches experienceWorld (Call.program .plain) Uncrossed (.initial ⟨acme, .empty⟩) s ∧
    ∃ r ∈ s.state.experiences.rows,
      ¬ Meant WorkExperience.claimed r.toWorkExperience s.history) ∧
  ∃ s, Reaches experienceWorld (Call.program .plain) (fun _ _ _ _ _ => True)
      (.initial ⟨acme, .empty⟩) s ∧
    ∃ r ∈ s.state.experiences.rows,
      ¬ Meant WorkExperience.employer r.toWorkExperience s.history
  := by
  constructor
  · have hplayed : (((Pool.initial ⟨acme, .empty⟩).play experienceWorld (Call.program .plain)
        Uncrossed (confirmed ++ retitled)).map fun s =>
          decide (∃ r ∈ s.state.experiences.rows,
            ¬ Meant WorkExperience.claimed r.toWorkExperience s.history)) = some true := by
      decide +kernel
    obtain ⟨s, hs, hmeant⟩ := Option.map_eq_some_iff.mp hplayed
    exact ⟨s, Pool.reaches_of_play _ _ _ hs, of_decide_eq_true hmeant⟩
  · have hplayed : (((Pool.initial ⟨acme, .empty⟩).play experienceWorld (Call.program .plain)
        (fun _ _ _ _ _ => True) (confirmed ++ crossing)).map fun s =>
          decide (∃ r ∈ s.state.experiences.rows,
            ¬ Meant WorkExperience.employer r.toWorkExperience s.history)) = some true := by
      decide +kernel
    obtain ⟨s, hs, hmeant⟩ := Option.map_eq_some_iff.mp hplayed
    exact ⟨s, Pool.reaches_of_play _ _ _ hs, of_decide_eq_true hmeant⟩

/-- A claim whose description was edited is confirmed as it is. -/
theorem employment_confirmed_al :
  ∃ s, Reaches experienceWorld (Call.program .plain) Uncrossed (.initial ⟨acme, .empty⟩) s ∧
    ∃ r ∈ s.state.experiences, r.organizationConfirmedAt.isSome = true ∧
      Meant WorkExperience.employer r.toWorkExperience s.history ∧ r.StatesItself .plain s.state
  := by
  have hplayed : (((Pool.initial ⟨acme, .empty⟩).play experienceWorld (Call.program .plain)
      Uncrossed (confirmed ++ redescribed)).map fun s =>
        decide (∃ r ∈ s.state.experiences.rows, r.organizationConfirmedAt.isSome = true)) =
      some true := by
    decide +kernel
  obtain ⟨s, hs, hconfirmed⟩ := Option.map_eq_some_iff.mp hplayed
  obtain ⟨r, hr, hconfirmed⟩ := of_decide_eq_true hconfirmed
  have hreaches := Pool.reaches_of_play _ _ _ hs
  exact ⟨s, hreaches, r, hr, hconfirmed, employment_confirmed .plain acme s hreaches r hr⟩

end Identity.Employment
