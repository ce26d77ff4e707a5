import Noombat.Federation.HandlerEffects
import Noombat.Federation.History
import Noombat.Federation.RelayedPost
import Noombat.Federation.Rows

/-!
# The mark of relayed posts

A post is marked as taken on a relay's word by a statement that follows the processing of an
unverified delivery, and that names the identifier in the payload.  The post it marks is the
one that the delivery inserted, unless a post was stored under the identifier before.
-/

namespace Federation

open Fallible Program

/-! ### The requests that mark -/

/-- Whether a request marks posts as taken on a relay's word. -/
def FedRequest.marks : FedRequest → Bool
  | .sql (.markRelayedUnverified _) => true
  | _ => false

/-- The requests that mark no post. -/
abbrev FedRequest.Unmarking (q : FedRequest) : Prop :=
  q.marks = false

theorem unmarking_of_isMinor {q : FedRequest} (h : q.isMinor = true) :
  q.Unmarking
  := by
  cases q with
  | sql s => cases s <;> first | rfl | cases h
  | _ => rfl

theorem permits_unmarking :
  PermitsPosts FedRequest.Unmarking where
  read _ := unmarking_of_isMinor
  upsert _ := rfl
  moved _ _ := rfl
  insert _ := rfl
  record _ _ _ := rfl
  canonical _ _ := rfl
  update _ _ _ := rfl
  delete _ := rfl
  deleteActor _ := rfl

/-! ### The marks of rows -/

/-- The identifier under which a request marks a post. -/
def FedRequest.marksUnder : (q : FedRequest) → fedWorld.Choice q → Option String
  | .sql (.markRelayedUnverified apId), c => if c.error = none then some apId else none
  | _, _ => none

/-- A delivery marks no post that was stored before, unless that post is marked already. -/
def MarksNew (base : Core) : Condition fedWorld :=
  fun q c _ => ∀ apId ∈ q.marksUnder c, ∀ p ∈ base.posts.rows, p.apId = apId →
    p.relayedUnverified = true

instance (base : Core) (q : FedRequest) (c : fedWorld.Choice q) (db : Db) :
    Decidable (MarksNew base q c db) :=
  inferInstanceAs (Decidable (∀ apId ∈ q.marksUnder c, ∀ p ∈ base.posts.rows, p.apId = apId →
    p.relayedUnverified = true))

/-- The posts that were there keep their marks. -/
structure Core.KeepsMarks (base core : Core) : Prop where
  nextId_le : base.nextId ≤ core.nextId
  old : ∀ p ∈ core.posts, p.id < base.nextId → ∃ p₀ ∈ base.posts, p₀.id = p.id ∧
    p₀.apId = p.apId ∧ p.relayedUnverified = p₀.relayedUnverified

theorem Core.KeepsMarks.refl (core : Core) :
  core.KeepsMarks core
  := ⟨Nat.le_refl _, fun p hp _ => ⟨p, hp, rfl, rfl, rfl⟩⟩

theorem Core.KeepsMarks.trans {core core' core'' : Core} (h : core.KeepsMarks core')
    (h' : core'.KeepsMarks core'') :
  core.KeepsMarks core''
  := by
  refine ⟨Nat.le_trans h.nextId_le h'.nextId_le, ?_⟩
  intro p hp hid
  obtain ⟨p', hp', hid', hapId', hmark'⟩ := h'.old p hp (Nat.lt_of_lt_of_le hid h.nextId_le)
  obtain ⟨p₀, hp₀, hid₀, hapId₀, hmark₀⟩ := h.old p' hp' (hid' ▸ hid)
  exact ⟨p₀, hp₀, hid₀.trans hid', hapId₀.trans hapId', hmark'.trans hmark₀⟩

theorem FedRequest.Inserts.unmarked {q : FedRequest} {p : Post} (h : q.Inserts p) :
  p.relayedUnverified = false
  := by
  cases h <;> rfl

theorem exec_keepsMarks {base : Core} {q : FedRequest} {c : fedWorld.Choice q} {db : Db}
    (hnew : MarksNew base q c db) (hbase : base.KeepsMarks db.toCore) :
  base.KeepsMarks (fedWorld.exec q c db).2.toCore
  := by
  refine ⟨Nat.le_trans hbase.nextId_le (exec_nextId_le q c db), ?_⟩
  intro p' hp' hid
  rcases exec_posted hp' with ⟨p, hp, hrewrites⟩ | ⟨p, _, rfl⟩
  · rcases hrewrites.mark with hmark | ⟨rfl, hmark⟩
    · rw [hrewrites.id_eq] at hid ⊢
      rw [hrewrites.apId_eq, hmark]
      apply hbase.old p hp hid
    · cases herror : c.error with
      | some e =>
          simp only [fedWorld, herror] at hp'
          apply hbase.old p' hp' hid
      | none =>
          rw [hrewrites.id_eq] at hid ⊢
          obtain ⟨p₀, hp₀, hid₀, hapId₀, _⟩ := hbase.old p hp hid
          have hunder : FedRequest.marksUnder (.sql (.markRelayedUnverified p.apId)) c =
              some p.apId := if_pos herror
          refine ⟨p₀, hp₀, hid₀, hapId₀.trans hrewrites.apId_eq.symm, ?_⟩
          rw [hmark, hnew p.apId hunder p₀ hp₀ hapId₀]
  · exact absurd hid (Nat.not_lt_of_ge hbase.nextId_le)

/-- The posts that are new bear no mark. -/
def Core.NewUnmarked (base core : Core) : Prop :=
  ∀ p ∈ core.posts, base.nextId ≤ p.id → p.relayedUnverified = false

theorem exec_newUnmarked {base : Core} {q : FedRequest} {c : fedWorld.Choice q} {db : Db}
    (hq : q.Unmarking) (hbase : base.NewUnmarked db.toCore) :
  base.NewUnmarked (fedWorld.exec q c db).2.toCore
  := by
  intro p' hp' hid
  rcases exec_posted hp' with ⟨p, hp, hrewrites⟩ | ⟨p, hinserts, rfl⟩
  · rw [hrewrites.id_eq] at hid
    rcases hrewrites.mark with hmark | ⟨rfl, _⟩
    · rw [hmark]
      apply hbase p hp hid
    · cases hq
  · exact hinserts.unmarked

/-! ### Deliveries -/

/-- The course that a delivery takes: as a relay's announcement, with the outcome of its
verification, or not. -/
inductive Course where
  | direct
  | relayed (outcome : RelayVerificationOutcome)
  deriving DecidableEq

variable (ext : External)

/-- The course that an activity takes once its envelope is accepted. -/
def courseOfActivity (config : Config) (activity : Activity) : Handler Course :=
  if activity.activityType = "Announce" then do
    let isRelay ← isRelayAnnounce activity.actor
    if isRelay then
      if activity.object.isObject then do
        let policy ← policyForRelay config.defaultPolicy activity.actor
        let outcome ← verifyRelayedActivity ext activity.object policy
        return .relayed outcome
      else return .relayed .discard
    else return .direct
  else pure .direct

/-- The part of the processing of a delivery that decides the course it takes. -/
def courseOf (config : Config) (verifiedActor : String) (document : Json) (activity : Activity) :
    Handler Course :=
  if verifiedActor = activity.actor then do
    let verdict ← verifyInboundProof ext document activity.actor
    match verdict with
    | .invalid => throw .forbidden
    | .valid | .absent => courseOfActivity ext config activity
  else throw .forbidden

/-- The part that follows. -/
def takeCourse (config : Config) (activity : Activity) : Course → Handler Unit
  | .direct =>
      if activity.activityType = "Announce" then handleBoost ext activity
      else dispatch ext config activity
  | .relayed .discard => pure ()
  | .relayed .verified => ingestRelayed ext activity .verified
  | .relayed .unverified => ingestRelayed ext activity .unverified

theorem handleRelayedAnnounce_eq (config : Config) (activity : Activity) :
  handleRelayedAnnounce ext config activity =
    (if activity.object.isObject then do
      let policy ← policyForRelay config.defaultPolicy activity.actor
      let outcome ← verifyRelayedActivity ext activity.object policy
      return .relayed outcome
    else return .relayed .discard) >>= takeCourse ext config activity
  := by
  unfold handleRelayedAnnounce
  split
  · simp only [LawfulMonad.bind_assoc, LawfulMonad.pure_bind]
    congr 1
    funext policy
    congr 1
    funext outcome
    cases outcome <;> rfl
  · rw [LawfulMonad.pure_bind]
    rfl

theorem dispatch_eq (config : Config) (activity : Activity) :
  dispatch ext config activity =
    courseOfActivity ext config activity >>= takeCourse ext config activity
  := by
  unfold courseOfActivity
  split
  · rename_i hannounce
    have hhandler : dispatch ext config activity = handleAnnounce ext config activity := by
      simp only [dispatch, hannounce]
    rw [hhandler, LawfulMonad.bind_assoc]
    unfold handleAnnounce
    congr 1
    funext isRelay
    cases isRelay with
    | true => apply handleRelayedAnnounce_eq
    | false =>
        rw [if_neg Bool.false_ne_true, if_neg Bool.false_ne_true, LawfulMonad.pure_bind]
        exact (if_pos hannounce).symm
  · rename_i hannounce
    rw [LawfulMonad.pure_bind]
    exact (if_neg hannounce).symm

theorem processActivity_eq (config : Config) (verifiedActor : String) (document : Json)
    (activity : Activity) :
  processActivity ext config verifiedActor document activity =
    courseOf ext config verifiedActor document activity >>= takeCourse ext config activity
  := by
  unfold processActivity courseOf
  split
  · rw [LawfulMonad.bind_assoc]
    congr 1
    funext verdict
    cases verdict with
    | invalid => rfl
    | valid => apply dispatch_eq
    | absent => apply dispatch_eq
  · rfl

theorem unmarking_courseOf (config : Config) (verifiedActor : String) (document : Json)
    (activity : Activity) :
  Every FedRequest.Unmarking (courseOf ext config verifiedActor document activity).run
  := by
  have hactivity : Every FedRequest.Unmarking (courseOfActivity ext config activity).run := by
    unfold courseOfActivity
    split
    · apply every_run_bind (every_unwrapOr _ (every_sql (by rfl)))
      intro isRelay
      split
      · split
        · apply every_run_bind
          · apply every_run_bind (every_unwrapOr _ (every_sql (by rfl)))
            intro stored
            apply every_run_pure
          · intro policy
            apply every_run_bind (every_verifyRelayedActivity ext permits_unmarking.consult _ _)
            intro outcome
            apply every_run_pure
        · apply every_run_pure
      · apply every_run_pure
    · apply every_run_pure
  unfold courseOf
  split
  · apply every_run_bind
      (every_verifyInboundProof ext permits_unmarking.consult permits_unmarking.upsert _ _)
    rintro (_ | _ | _)
    · exact hactivity
    · apply every_run_throw
    · exact hactivity
  · apply every_run_throw

/-- Only an unverified delivery of a relay goes on to mark posts. -/
theorem unmarking_takeCourse (config : Config) (activity : Activity) {course : Course}
    (h : course ≠ .relayed .unverified) :
  Every FedRequest.Unmarking (takeCourse ext config activity course).run
  := by
  cases course with
  | direct =>
      change Every _ (if activity.activityType = "Announce" then handleBoost ext activity
        else dispatch ext config activity).run
      split
      · apply every_handleBoost ext permits_unmarking
      · rename_i hannounce
        apply every_dispatch ext permits_unmarking config activity (fun _ _ => rfl)
        intro htype
        exact absurd htype hannounce
  | relayed outcome =>
      cases outcome with
      | discard => apply every_run_pure
      | verified =>
          change Every _ (ingestRelayed ext activity .verified).run
          apply every_ingestRelayed ext permits_unmarking
          intro hunverified
          cases hunverified
      | unverified => exact absurd rfl h

/-! ### Histories -/

/-- An event is a delivery of a relay that was not verified. -/
def Occurrence.UnverifiedRelay (config : Config) (o : Occurrence) (db : Db) : Prop :=
  match o.event with
  | .delivered verifiedActor document activity =>
      (run fedWorld o.script (courseOf ext config verifiedActor document activity).run db).1 =
        .ok (.relayed .unverified)
  | .posted _ => False

/-- In no event of a history is a post marked that was there before, unless it is marked
already. -/
def Orderly (config : Config) : List Occurrence → Db → Prop
  | [], _ => True
  | o :: history, db =>
      Along fedWorld (MarksNew db.toCore) o.script (o.event.handle ext config).run db ∧
        Orderly config history (o.after ext config db)

variable {ext}

/-- An event that marks no older post keeps the marks of all. -/
theorem Occurrence.after_keepsMarks {config : Config} {o : Occurrence} {db : Db}
    (h : Along fedWorld (MarksNew db.toCore) o.script (o.event.handle ext config).run db) :
  db.toCore.KeepsMarks (o.after ext config db).toCore
  := by
  have hkeeps : wp fedWorld (MarksNew db.toCore) (fun _ db' => db.toCore.KeepsMarks db'.toCore)
      (o.event.handle ext config).run db := by
    apply Every.wp_inv (fun db' : Db => db.toCore.KeepsMarks db'.toCore)
      (fun q _ c db' hc hdb' => exec_keepsMarks hc hdb') (every_true _)
    apply Core.KeepsMarks.refl
  apply wp_run hkeeps h

/-- A run of requests that mark nothing leaves the new posts unmarked. -/
theorem newUnmarked_of_every {α : Type} {base : Core} {p : Program Fed α}
    (h : Every FedRequest.Unmarking p) (script : Script fedWorld) (n : Nat) {db : Db}
    (hdb : base.NewUnmarked db.toCore) :
  base.NewUnmarked (runFrom fedWorld script n p db).2.toCore
  := by
  have hinv : wp fedWorld (Always fedWorld) (fun _ db' => base.NewUnmarked db'.toCore) p db := by
    apply Every.wp_inv (fun db' : Db => base.NewUnmarked db'.toCore)
      (fun q hq c db' _ hdb' => exec_newUnmarked hq hdb') h hdb
  apply wp_runFrom script n hinv (alongFrom_always script n p db)

/-- An event other than an unverified delivery of a relay leaves the new posts unmarked. -/
theorem Occurrence.after_newUnmarked {config : Config} {o : Occurrence} {db : Db}
    (h : ¬ o.UnverifiedRelay ext config db) :
  db.toCore.NewUnmarked (o.after ext config db).toCore
  := by
  have hstart : db.toCore.NewUnmarked db.toCore := by
    intro p hp hid
    exact absurd (db.posts_old p hp) (Nat.not_lt_of_ge hid)
  obtain ⟨event, script⟩ := o
  cases event with
  | posted post =>
      have hpost : Every FedRequest.Unmarking ((Event.posted post).handle ext config).run := by
        apply every_run_bind (every_sql (by rfl))
        intro _
        apply every_run_pure
      apply newUnmarked_of_every hpost script 0 hstart
  | delivered verifiedActor document activity =>
      have hcourse := newUnmarked_of_every
        (unmarking_courseOf ext config verifiedActor document activity) script 0 hstart
      unfold Occurrence.after Event.handle run
      simp only
      rw [processActivity_eq, run_bind, runFrom_bind]
      unfold Occurrence.UnverifiedRelay run at h
      simp only at h
      cases hresult : (runFrom fedWorld script 0
          (courseOf ext config verifiedActor document activity).run db).1 with
      | error e => exact hcourse
      | ok course =>
          rw [hresult] at h
          have hrest := unmarking_takeCourse ext config activity
            (fun hunverified => h (congrArg Except.ok hunverified))
          apply newUnmarked_of_every hrest script _ hcourse

/-- What is left of an orderly history is orderly. -/
theorem Orderly.rest {config : Config} {before rest : List Occurrence} {db : Db}
    (h : Orderly ext config (before ++ rest) db) :
  Orderly ext config rest (afterAll ext config before db)
  := by
  induction before generalizing db with
  | nil => exact h
  | cons o before ih => apply ih h.2

theorem afterAll_keepsMarks {config : Config} {history : List Occurrence} {db : Db}
    (h : Orderly ext config history db) :
  db.toCore.KeepsMarks (afterAll ext config history db).toCore
  := by
  induction history generalizing db with
  | nil => apply Core.KeepsMarks.refl
  | cons o history ih =>
      obtain ⟨hevent, hrest⟩ := h
      rw [afterAll_cons]
      apply (Occurrence.after_keepsMarks hevent).trans (ih hrest)

/-- After a history in which no older post is marked, the marked posts are those that were
marked before it and some that were inserted by an unverified delivery of a relay. -/
theorem marked_of_history (config : Config) {history : List Occurrence} {db : Db}
    (h : Orderly ext config history db) {p : Post}
    (hp : p ∈ (afterAll ext config history db).posts) (hmark : p.relayedUnverified = true) :
  (∃ p₀ ∈ db.posts, p₀.id = p.id ∧ p₀.relayedUnverified = true) ∨
    ∃ before o rest, history = before ++ o :: rest ∧
      o.UnverifiedRelay ext config (afterAll ext config before db) ∧
      (afterAll ext config before db).nextId ≤ p.id ∧
      p.id < (afterAll ext config (before ++ [o]) db).nextId
  := by
  induction history generalizing db with
  | nil => exact .inl ⟨p, hp, rfl, hmark⟩
  | cons o history ih =>
      obtain ⟨hevent, hrest⟩ := h
      rcases ih hrest hp with ⟨p₁, hp₁, hid₁, hmark₁⟩ | ⟨before, o', rest, hsplit, hlater⟩
      · by_cases hold : p₁.id < db.nextId
        · obtain ⟨p₀, hp₀, hid₀, _, hmark₀⟩ :=
            (Occurrence.after_keepsMarks hevent).old p₁ hp₁ hold
          exact .inl ⟨p₀, hp₀, hid₀.trans hid₁, hmark₀.symm.trans hmark₁⟩
        · have hnew : db.nextId ≤ p₁.id := Nat.le_of_not_lt hold
          refine .inr ⟨[], o, history, rfl, ?_, hid₁ ▸ hnew, ?_⟩
          · by_contra hother
            have hunmarked := Occurrence.after_newUnmarked hother p₁ hp₁ hnew
            rw [hmark₁] at hunmarked
            cases hunmarked
          · rw [← hid₁]
            apply (o.after ext config db).posts_old p₁ hp₁
      · exact .inr ⟨o :: before, o', rest, by rw [hsplit]; rfl, hlater⟩

/-- After a history in which no older post is marked, a post is marked only if it was before,
or an unverified delivery of a relay inserted it; and a post that was there at some moment
of the history keeps the mark that it had then. -/
theorem relayedUnverified_history (ext : External) (config : Config) (history : List Occurrence)
    (db : Db) (h : Orderly ext config history db) (p : Post)
    (hp : p ∈ (afterAll ext config history db).posts) :
  (p.relayedUnverified = true →
    (∃ p₀ ∈ db.posts, p₀.id = p.id ∧ p₀.relayedUnverified = true) ∨
      ∃ before o rest, history = before ++ o :: rest ∧
        o.UnverifiedRelay ext config (afterAll ext config before db) ∧
        (afterAll ext config before db).nextId ≤ p.id ∧
        p.id < (afterAll ext config (before ++ [o]) db).nextId) ∧
  ∀ before rest, history = before ++ rest → ∀ p₀ ∈ (afterAll ext config before db).posts,
    p₀.id = p.id → p.relayedUnverified = p₀.relayedUnverified
  := by
  constructor
  · intro hmark
    apply marked_of_history config h hp hmark
  · intro before rest hsplit p₀ hp₀ hid
    subst hsplit
    rw [afterAll_append] at hp
    have hold : p.id < (afterAll ext config before db).nextId := by
      rw [← hid]
      apply (afterAll ext config before db).posts_old p₀ hp₀
    obtain ⟨p₁, hp₁, hid₁, _, hmark⟩ := (afterAll_keepsMarks h.rest).old p hp hold
    rw [hmark, Core.post_eq_of_id hp₁ hp₀ (hid₁.trans hid.symm)]

/-! ### A post marked by an announcement -/

/-- A relay that is taken at its word, and a post of Ann. -/
def trustingDb : Db :=
  { Db.empty with
    toCore := (dbOf [.remote "https://s.ex/a" "ann" "PEM" none]).toCore.withPosts
      [.plain 1 "https://s.ex/1" (note "https://s.ex/1" "https://s.ex/a")]
    relaySubscriptions := ⟨[⟨"https://r.ex/inbox", .accepted, some "trust-relay"⟩], by simp⟩ }

/-- The relay announces the creation of a note of Ann under an identifier. -/
def announcedNote (id : String) : Occurrence where
  event :=
    .delivered "https://r.ex" (.obj []) (announcement "https://r.ex"
      (.obj [("actor", .str "https://s.ex/a"), ("id", .str "https://s.ex/c"),
        ("object", note id "https://s.ex/a"), ("type", .str "Create")]))
  script := steady fun _ => .error .forbidden

/-- The announcement of a post that is stored already marks it. -/
theorem announcedNote_marks :
  ∃ p₀ ∈ trustingDb.posts, p₀.relayedUnverified = false ∧
    ∃ p ∈ (afterAll .plain relayConfig [announcedNote "https://s.ex/1"] trustingDb).posts,
      p.id = p₀.id ∧ p.relayedUnverified = true
  := by
  have hbefore : (trustingDb.posts.rows.any fun p =>
      p.id == 2 && p.relayedUnverified == false) = true := by
    decide +kernel
  have hafter : ((afterAll .plain relayConfig [announcedNote "https://s.ex/1"]
      trustingDb).posts.rows.any fun p => p.id == 2 && p.relayedUnverified == true) = true := by
    decide +kernel
  obtain ⟨p₀, hp₀, htest₀⟩ := List.any_eq_true.mp hbefore
  obtain ⟨p, hp, htest⟩ := List.any_eq_true.mp hafter
  simp only [Bool.and_eq_true, beq_iff_eq] at htest₀ htest
  exact ⟨p₀, hp₀, htest₀.2, p, hp, htest.1.trans htest₀.1.symm, htest.2⟩

/-- The announcement of another post leaves the mark of the stored one. -/
theorem announcedNote_keeps :
  ∃ p ∈ (afterAll .plain relayConfig [announcedNote "https://s.ex/2"] trustingDb).posts,
    ∃ p₀ ∈ trustingDb.posts, p₀.id = p.id ∧ p.relayedUnverified = p₀.relayedUnverified
  := by
  have horderly : Orderly .plain relayConfig [announcedNote "https://s.ex/2"] trustingDb := by
    constructor
    · decide +kernel
    · trivial
  have hbefore : (trustingDb.posts.rows.any fun p => p.id == 2) = true := by
    decide +kernel
  have hafter : ((afterAll .plain relayConfig [announcedNote "https://s.ex/2"]
      trustingDb).posts.rows.any fun p => p.id == 2) = true := by
    decide +kernel
  obtain ⟨p₀, hp₀, hid₀⟩ := List.any_eq_true.mp hbefore
  obtain ⟨p, hp, hid⟩ := List.any_eq_true.mp hafter
  have hsame : p₀.id = p.id := (beq_iff_eq.mp hid₀).trans (beq_iff_eq.mp hid).symm
  have hkept := (relayedUnverified_history .plain relayConfig _ trustingDb horderly p hp).2 [] _ rfl
  exact ⟨p, hp, p₀, hp₀, hsame, hkept p₀ hp₀ hsame⟩

end Federation
