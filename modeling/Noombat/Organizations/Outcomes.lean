import Noombat.Organizations.Ceilings

/-!
# The outcomes of enrolments

In every run, every owner stays within the ceilings of the policy.  An enrolment that has changed
anything has committed, and returns no error.  What it counts of its owner is what is committed,
and the enrolments of others leave that as it is; what they can take from it is the username.
-/

namespace Organizations

open Federation (Uuid DateTime NoombatError)
open Fallible Program

variable {lib : OrgLibrary}

/-- One state of the calls can become another, whatever the statements fail with, and whatever
time they take. -/
abbrev Runs (lib : OrgLibrary) : Calls → Calls → Prop :=
  Reaches (orgWorld lib) (Call.program lib) fun _ _ _ _ _ => True

abbrev Event : Type :=
  Interface.Event Orgs Call

theorem ceilinged {policy : OrganizationPolicy} {db : Db} (hdb : Within lib policy db)
    {clock : DateTime} {s : Calls} (hreach : Runs lib (.initial (.initial db clock)) s) :
  s.Disciplined Asked ∧ Ceilinged lib policy s
  := by
  apply Step.inv (Ceilinged lib policy) asks_program _ _ (Pool.initial_disciplined _ _) _ hreach
  · intro s t hs
    exact ⟨hs.compatible, hs.within⟩
  · intro s i t q k c _ hs _ hasked _
    exact ceilinged_exchange hs hasked
  · constructor
    · constructor
      · intro i
        trivial
      · rintro i j _ tx ⟨⟩
    · exact hdb

/-! ### Enrolments that fail -/

/-- A call is refused. -/
def Refused (e : Event) : Prop :=
  ∃ error answer, e.exchange = ⟨.respond (.enrolled (.error error)), answer⟩

section Traces

variable {t : Call} {l : List Orgs.Exchange}

/-- A call that has committed returns no error. -/
theorem committed_cons {x : Orgs.Exchange} (hl : Phase.of l = .committed)
    (hasked : Asked t l x.request) :
  Phase.of (x :: l) = .committed
  := by
  rw [Phase.of_cons, hl]
  obtain ⟨q, a⟩ := x
  cases q with
  | sql q => cases q <;> rfl
  | generateKeypair => rfl
  | sealKeys => rfl
  | newUuid => rfl
  | respond r =>
      rcases r with (error | id) | r
      · exact absurd hl hasked
      · rfl
      · rfl

theorem committed_append {later : List Orgs.Exchange} (hl : Phase.of l = .committed)
    (hasked : Past.Throughout (fun x l => Asked t l x.request) (later ++ l)) :
  Phase.of (later ++ l) = .committed
  := by
  induction later with
  | nil => exact hl
  | cons x later ih => exact committed_cons (ih hasked.2) hasked.1

/-- A call that has returned an error does nothing else. -/
theorem refused_of_mem {error : NoombatError} {answer}
    (hmem : ⟨.respond (.enrolled (.error error)), answer⟩ ∈ l) :
  Phase.of l = .refused
  := by
  induction l with
  | nil => cases hmem
  | cons x l ih =>
      rw [Phase.of_cons]
      rcases List.mem_cons.mp hmem with rfl | hmem
      · cases Phase.of l <;> rfl
      · rw [ih hmem]
        obtain ⟨q, a⟩ := x
        cases q with
        | sql q => cases q <;> rfl
        | generateKeypair => rfl
        | sealKeys => rfl
        | newUuid => rfl
        | respond r => rcases r with (error | id) | r <;> rfl

/-- A transaction that is under way has begun. -/
theorem began_of_phase {b : Nat × DateTime} (h : (Phase.of l).began = some b) :
  ⟨.sql .begin, .ok b⟩ ∈ l
  := by
  induction l with
  | nil => cases h
  | cons x l ih =>
      rcases Phase.next_began h with h | rfl
      · exact List.mem_cons_of_mem _ (ih h)
      · exact List.mem_cons_self

end Traces

/-- A statement that is not of an enrolment's transaction, and changes nothing. -/
theorem committed_of_asked {t : Call} {l : List Orgs.Exchange} {q : OrgSql}
    (ht : t.isEnrol = true) (hasked : Asked t l (.sql q)) (hq : Phase.idle q = true)
    (s : Registry) :
  (q.exec lib s).2.committed = s.committed
  := by
  have hnot : t.isEnrol ≠ false := by
    rw [ht]
    nofun
  cases q with
  | viewer id => rfl
  | usernameTaken domain username => rfl
  | rollback tx => rfl
  | findLocalByUsername username => rfl
  | memberRole organizationId memberId => rfl
  | findById id => rfl
  | invite organizationId memberId =>
      obtain ⟨inviter, username, rfl, _⟩ := hasked
      cases ht
  | accept organizationId memberId =>
      obtain rfl := hasked
      cases ht
  | removeMember organizationId memberId => exact absurd hasked hnot
  | tombstone id => exact absurd hasked hnot
  | purge id => exact absurd hasked hnot
  | _ => cases hq

section Steps

variable {db : Db} {clock : DateTime} {policy : OrganizationPolicy} {s : Calls} {i : Nat}
  {t : Call} {q : OrgRequest} {k : Orgs.Answer q → Program Orgs Unit}
  {c : (orgWorld lib).Choice q}

/-- What is committed is changed by an enrolment only when it commits what is complete. -/
theorem enrols_of_changed (hs : Ceilinged lib policy s)
    (hasked : Asked t (s.history.trace i) q) (ht : t.isEnrol = true) :
  ((orgWorld lib).exec q c s.state).2.committed = s.state.committed ∨
    ∃ o time, t.owner = some o ∧
      Enrols o time s.state.committed ((orgWorld lib).exec q c s.state).2.committed ∧
      Phase.of (⟨q, ((orgWorld lib).exec q c s.state).1⟩ :: s.history.trace i) = .committed
  := by
  have hφ : (Phase.of (s.history.trace i)).Fits lib s.state := hs.compatible.fits i
  rcases committed_exec q c s.state with hsame | ⟨q', elapsed, rfl, hidle, hexec⟩ |
    ⟨tx, elapsed, hx, hcommit⟩
  · exact .inl hsame
  · left
    rw [hexec]
    exact committed_of_asked ht hasked hidle _
  · right
    rw [hx]
    obtain ⟨rfl, _⟩ := Interface.Exchange.mk.inj hx
    obtain ⟨o, e, policy', ho, hphase, he⟩ := hasked
    rw [hphase] at hφ
    obtain ⟨_, _, ⟨_, _, hfounds⟩, _⟩ := of_commit (later_fits elapsed hφ) he hcommit
    refine ⟨o, e.time, ho, hfounds.enrols, ?_⟩
    rw [Phase.of_cons, hphase]
    rfl

/-- An enrolment that changes something returns no error, ever after. -/
theorem not_refused_of_changed (hdb : Within lib policy db)
    (hreach : Runs lib (.initial (.initial db clock)) s)
    (hthread : s.threads[i]? = some ⟨t, .call q k⟩) (ht : t.isEnrol = true)
    (hchanged : (s.exchange (orgWorld lib) i t q k c).state.committed ≠ s.state.committed)
    {s' : Calls} (hlater : Runs lib (s.exchange (orgWorld lib) i t q k c) s')
    {e : Event} (he : e ∈ s'.history) (hi : e.thread = i) :
  ¬ Refused e
  := by
  obtain ⟨hdisc, hs⟩ := ceilinged hdb hreach
  have hasked := ((asks_call _ _ _ _).mp (hdisc.threads i _ _ hthread)).1
  have hstep : Step (orgWorld lib) (Call.program lib) (fun _ _ _ _ _ => True) s
      (s.exchange (orgWorld lib) i t q k c) := .exchange s i t q k c hthread trivial
  -- the call has committed
  have hcommitted : Phase.of ((s.exchange (orgWorld lib) i t q k c).history.trace i) =
      .committed := by
    rw [Pool.trace_exchange_same]
    rcases enrols_of_changed hs hasked ht with hsame | ⟨_, _, _, _, hphase⟩
    · exact absurd hsame hchanged
    · exact hphase
  obtain ⟨later, hhistory⟩ := Reaches.history hlater
  have hreach' := (hreach.tail hstep).trans hlater
  obtain ⟨p, hp⟩ := (ceilinged hdb hreach').1.events e he
  have hasked' := Reaches.asked asks_program hreach' hp
  rw [hi, hhistory, Interface.History.trace_append] at hasked'
  have hstill := committed_append hcommitted hasked'
  rintro ⟨error, answer, hexchange⟩
  have hmem := Interface.History.mem_trace.mpr ⟨e, he, hi, hexchange⟩
  rw [hhistory, Interface.History.trace_append] at hmem
  rw [refused_of_mem hmem] at hstill
  cases hstill

end Steps

/-! ### Other owners -/

/-- What the ceilings of an owner are about is the same. -/
structure SameFor (o : Uuid) (db db' : Db) : Prop where
  settings : db'.instanceSettings = db.instanceSettings
  members : (db'.organizationMembers.rows.filter fun r => r.memberId == o) =
    db.organizationMembers.rows.filter fun r => r.memberId == o
  enrolments : (db'.organizationEnrolments.filter fun r => r.ownerId == o) =
    db.organizationEnrolments.filter fun r => r.ownerId == o

/-- A step reads the settings that are committed, and counts what is committed of the owner for
whom it enrols. -/
def ReadsOwn (lib : OrgLibrary) (s : Calls) (e : Event) : Prop :=
  match e.exchange with
  | ⟨.sql (.settings _), .ok row⟩ => row = s.state.committed.instanceSettings
  | ⟨.sql (.held _ o), .ok n⟩ => e.task.owner = some o ∧ n = s.state.committed.held o
  | ⟨.sql (.enrolmentsWithin tx o interval), .ok n⟩ => e.task.owner = some o ∧
      ∃ time, ⟨.sql .begin, .ok (tx, time)⟩ ∈ s.history.trace e.thread ∧
        n = (s.state.committed.enrolmentTimes o).countP fun t =>
          decide (lib.before interval time < t)
  | _ => True

section Steps

variable {policy : OrganizationPolicy} {s : Calls} {i : Nat} {t : Call} {q : OrgRequest}
  {k : Orgs.Answer q → Program Orgs Unit} {c : (orgWorld lib).Choice q}

/-- An enrolment leaves what the ceilings of the other owners are about. -/
theorem sameFor_exchange (hs : Ceilinged lib policy s) (hasked : Asked t (s.history.trace i) q)
    (ht : t.isEnrol = true) {o : Uuid} (ho : t.owner ≠ some o) :
  SameFor o s.state.committed (s.exchange (orgWorld lib) i t q k c).state.committed
  := by
  rcases enrols_of_changed (c := c) hs hasked ht with hsame | ⟨o', time, ho', henrols, _⟩
  · change SameFor o _ ((orgWorld lib).exec q c s.state).2.committed
    rw [hsame]
    exact ⟨rfl, rfl, rfl⟩
  · have hne : o ≠ o' := by
      rintro rfl
      exact ho ho'
    obtain ⟨hmembers, henrolments⟩ := henrols.others o hne
    exact ⟨henrols.settings, hmembers, henrolments⟩

theorem readsOwn_exchange (hs : Ceilinged lib policy s) (hasked : Asked t (s.history.trace i) q) :
  ReadsOwn lib s ⟨i, t, q, ((orgWorld lib).exec q c s.state).1⟩
  := by
  have hφ : (Phase.of (s.history.trace i)).Fits lib s.state := hs.compatible.fits i
  cases q with
  | sql q =>
      cases c with
      | error e => cases q <;> trivial
      | ok elapsed =>
          have hlater := later_fits elapsed hφ
          cases q with
          | settings tx =>
              obtain ⟨e, hphase, rfl, hnothing⟩ := hasked
              rw [hphase] at hlater
              change ReadsOwn lib s ⟨i, t, .sql (.settings e.tx),
                (readIn e.tx (fun _ db => db.instanceSettings) (s.state.later elapsed)).1⟩
              rcases readIn_cases (fun _ db => db.instanceSettings) hlater hnothing with
                ⟨error, h⟩ | h
              · rw [h]
                trivial
              · rw [h]
                rfl
          | held tx o =>
              obtain ⟨ho, e, hphase, rfl, _, hnothing⟩ := hasked
              rw [hphase] at hlater
              change ReadsOwn lib s ⟨i, t, .sql (.held e.tx o),
                (readIn e.tx (fun _ db => db.held o) (s.state.later elapsed)).1⟩
              rcases readIn_cases (fun _ db => db.held o) hlater hnothing with ⟨error, h⟩ | h
              · rw [h]
                trivial
              · rw [h]
                exact ⟨ho, rfl⟩
          | enrolmentsWithin tx o interval =>
              obtain ⟨ho, e, hphase, rfl, _, hnothing⟩ := hasked
              have hbegan : (Phase.of (s.history.trace i)).began = some (e.tx, e.time) := by
                rw [hphase]
                rfl
              rw [hphase] at hlater
              let f : DateTime → Db → Nat := fun now db => (db.enrolmentTimes o).countP fun t =>
                decide (lib.before interval now < t)
              change ReadsOwn lib s ⟨i, t, .sql (.enrolmentsWithin e.tx o interval),
                (readIn e.tx f (s.state.later elapsed)).1⟩
              rcases readIn_cases f hlater hnothing with ⟨error, h⟩ | h
              · rw [h]
                trivial
              · rw [h]
                exact ⟨ho, e.time, began_of_phase hbegan, rfl⟩
          | _ => trivial
  | _ => trivial

end Steps

/-- In every run: every owner holds at most as many organisations as the policy allows, and has
at most as many enrolments as it allows whose times are less than a period apart; an enrolment
that changes anything is not refused; and it counts what is committed of its own owner, which the
enrolments of others leave as it is. -/
theorem enrolments_bounded (lib : OrgLibrary) (policy : OrganizationPolicy) (db : Db)
    (clock : DateTime) (hdb : Within lib policy db) (s : Calls)
    (hreach : Runs lib (.initial (.initial db clock)) s) :
  (∀ o, 0 < policy.concurrentCap → (s.state.committed.held o : Int) ≤ policy.concurrentCap) ∧
    (∀ o, 0 < policy.periodCapCount → ∀ w, Window (since lib policy.capPeriod) w →
      ((s.state.committed.enrolmentTimes o).countP w : Int) ≤ policy.periodCapCount) ∧
    (∀ o, 0 < policy.rateLimitCount → ∀ w, Window (since lib policy.rateLimitPeriod) w →
      ((s.state.committed.enrolmentTimes o).countP w : Int) ≤ policy.rateLimitCount) ∧
    ∀ (i : Nat) (t : Call) (q : OrgRequest) (k : Orgs.Answer q → Program Orgs Unit)
      (c : (orgWorld lib).Choice q), s.threads[i]? = some ⟨t, .call q k⟩ → t.isEnrol = true →
      ((s.exchange (orgWorld lib) i t q k c).state.committed ≠ s.state.committed →
        ∀ s', Runs lib (s.exchange (orgWorld lib) i t q k c) s' →
          ∀ e ∈ s'.history, e.thread = i → ¬ Refused e) ∧
      (∀ o, t.owner ≠ some o →
        SameFor o s.state.committed (s.exchange (orgWorld lib) i t q k c).state.committed) ∧
      ReadsOwn lib s ⟨i, t, q, ((orgWorld lib).exec q c s.state).1⟩
  := by
  obtain ⟨hdisc, hs⟩ := ceilinged hdb hreach
  have hwindow : ∀ {ceiling : Int} {period : Period} {ts : List DateTime}, 0 < ceiling →
      Spaced ceiling.toNat (since lib period) ts → ∀ w, Window (since lib period) w →
        (ts.countP w : Int) ≤ ceiling := by
    intro ceiling period ts hpos hspaced w hw
    have hle := hspaced.countP_le hw
    omega
  refine ⟨hs.within.held, ?_, ?_, ?_⟩
  · intro o hpos
    exact hwindow hpos (hs.within.period o hpos)
  · intro o hpos
    exact hwindow hpos (hs.within.rate o hpos)
  · intro i t q k c hthread ht
    have hasked := ((asks_call _ _ _ _).mp (hdisc.threads i t _ hthread)).1
    refine ⟨?_, ?_, ?_⟩
    · intro hchanged s' hlater e he hi
      exact not_refused_of_changed hdb hreach hthread ht hchanged hlater he hi
    · intro o ho
      exact sameFor_exchange hs hasked ht ho
    · exact readsOwn_exchange hs hasked

/-! ### Two founders -/

/-- A day has 24 hours here, a month 30 days and a year 365. -/
def plainLibrary : OrgLibrary where
  before := fun i t =>
    t - 3600000000000 * (i.hours + 24 * (i.days + 7 * i.weeks + 30 * i.months + 365 * i.years))
  hashtext := fun text => (text.toList.map fun c => (c.toNat : Int)).sum
  registrableDomain := fun _ => none
  showUuid := fun id => "00000000-0000-0000-0000-00000000000" ++ toString id

/-- Two persons on an instance with the default policy. -/
def founders : Db where
  actors := ⟨[⟨1, .individual, "alice", none, "example.org", true, none, none, none⟩,
    ⟨2, .individual, "bob", none, "example.org", true, none, none, none⟩], by decide⟩
  organizationMembers := .empty
  organizationEnrolments := []
  instanceSettings := none

def acme : EnrolRequest :=
  ⟨"acme", some "Acme", none, none⟩

/-- Every statement is executed at once, and a new actor gets the identifier given. -/
def granting (id : Uuid) : (q : OrgRequest) → (orgWorld plainLibrary).Choice q
  | .sql _ => .ok (0 : Nat)
  | .generateKeypair => .ok ()
  | .sealKeys => .ok ()
  | .newUuid => id
  | .respond _ => ()

/-- An actor enrols an organisation, and the call makes the number of exchanges given. -/
def enrolling (i : Nat) (o id : Uuid) (n : Nat) : List (Turn (orgWorld plainLibrary) Call) :=
  .start (.enrol "example.org" (some o) acme) :: List.replicate n (.exchange i (granting id))

/-- What an enrolment has returned. -/
def outcome (s : Calls) (i : Nat) : Option Response :=
  (s.history.trace i).findSome? fun x =>
    match x.request with
    | .respond r => some r
    | _ => none

/-- The enrolment is successful. -/
def succeeds : Option Response → Bool
  | some (.enrolled (.ok _)) => true
  | _ => false

/-- The username of the organisation is taken. -/
def taken (username : String) : Option Response → Bool
  | some (.enrolled (.error e)) => e == .actorAlreadyExists username
  | _ => false

/-- Nobody is over a ceiling where nothing has been enrolled. -/
theorem within_founders :
  Within plainLibrary .default founders
  where
  settings := rfl
  accepted := nofun
  held := fun _ hpos => Int.le_of_lt hpos
  period := fun _ _ => trivial
  rate := fun _ _ => trivial

/-- An organisation can be enrolled, and not if somebody else has enrolled one with the same
username before. -/
theorem username_taken :
  ∃ s s' : Calls, Runs plainLibrary (.initial (.initial founders 0)) s ∧
    Runs plainLibrary (.initial (.initial founders 0)) s' ∧
    s.threads.map (·.task) = [.enrol "example.org" (some 1) acme] ∧
    s'.threads.map (·.task) =
      [.enrol "example.org" (some 2) acme, .enrol "example.org" (some 1) acme] ∧
    succeeds (outcome s 0) = true ∧ taken "acme" (outcome s' 1) = true
  := by
  have halone : (((Pool.initial (.initial founders 0)).play (orgWorld plainLibrary)
      (Call.program plainLibrary) (fun _ _ _ _ _ => True) (enrolling 0 1 3 16)).map fun s =>
        (s.threads.map (·.task), succeeds (outcome s 0))) =
          some ([.enrol "example.org" (some 1) acme], true) := by
    decide +kernel
  have hafter : (((Pool.initial (.initial founders 0)).play (orgWorld plainLibrary)
      (Call.program plainLibrary) (fun _ _ _ _ _ => True)
      (enrolling 0 2 3 16 ++ enrolling 1 1 4 3)).map fun s =>
        (s.threads.map (·.task), taken "acme" (outcome s 1))) =
          some ([.enrol "example.org" (some 2) acme, .enrol "example.org" (some 1) acme], true) := by
    decide +kernel
  obtain ⟨s, hs, hresult⟩ := Option.map_eq_some_iff.mp halone
  obtain ⟨s', hs', hresult'⟩ := Option.map_eq_some_iff.mp hafter
  obtain ⟨htasks, hsucceeds⟩ := Prod.mk.inj hresult
  obtain ⟨htasks', htaken⟩ := Prod.mk.inj hresult'
  exact ⟨s, s', Pool.reaches_of_play _ _ _ hs, Pool.reaches_of_play _ _ _ hs', htasks, htasks',
    hsucceeds, htaken⟩

/-- Whoever has enrolled an organisation holds one. -/
theorem enrolments_bounded_alice :
  ∃ s : Calls, Runs plainLibrary (.initial (.initial founders 0)) s ∧
    s.state.committed.held 1 = 1 ∧ (s.state.committed.held 1 : Int) ≤ 5
  := by
  have hplayed : (((Pool.initial (.initial founders 0)).play (orgWorld plainLibrary)
      (Call.program plainLibrary) (fun _ _ _ _ _ => True) (enrolling 0 1 3 16)).map fun s =>
        s.state.committed.held 1) = some 1 := by
    decide +kernel
  obtain ⟨s, hs, hheld⟩ := Option.map_eq_some_iff.mp hplayed
  have hruns : Runs plainLibrary (.initial (.initial founders 0)) s := Pool.reaches_of_play _ _ _ hs
  have hbounded := enrolments_bounded plainLibrary .default founders 0 within_founders s hruns
  exact ⟨s, hruns, hheld, hbounded.1 1 (by decide)⟩

end Organizations
