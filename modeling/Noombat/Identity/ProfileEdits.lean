import Noombat.Program.Threads
import Noombat.Federation.Types

/-!
# Edits of a profile

An edit reads the row of an actor, merges what it sets into what it has read, and writes all
columns of the profile back.  An avatar is set by one statement, and erasure clears all
columns when its transaction commits.  A column keeps the value that was set last if no edit
writes back a column that was changed, or an actor that was erased, since it has read them.
-/

namespace Identity.Profiles

open Federation (Uuid NoombatError)
open Fallible Program

/-! ### The rows -/

/-- The columns of an actor that edits write. -/
inductive Field where
  | displayName
  | headline
  | location
  | summaryMd
  | summaryHtml
  | avatarUrl
  | headerUrl
  deriving DecidableEq

def Field.all : List Field :=
  [displayName, headline, location, summaryMd, summaryHtml, avatarUrl, headerUrl]

theorem Field.mem_all (f : Field) :
  f ∈ all
  := by
  cases f with
  | _ => simp [all]

instance (p : Field → Prop) [DecidablePred p] : Decidable (∀ f, p f) :=
  decidable_of_iff (∀ f ∈ Field.all, p f)
    ⟨fun h f => h f (Field.mem_all f), fun h f _ => h f⟩

abbrev Profile : Type :=
  Field → Option String

structure Actor where
  isLocal : Bool
  profile : Profile

/-- The rows of `actors`. -/
abbrev Db : Type :=
  Uuid → Option Actor

/-- The database after a change of one row, if it is there. -/
def Db.modify (id : Uuid) (f : Actor → Actor) (db : Db) : Db :=
  fun id' => if id' = id then (db id).map f else db id'

/-! ### Statements -/

inductive Sql where
  | selectById (id : Uuid)
  | updateProfile (id : Uuid) (profile : Profile)
  | setAvatarUrl (id : Uuid) (url : Option String)
  /-- The transaction that clears the personal columns, at its commit. -/
  | tombstone (id : Uuid)

@[reducible]
def Sql.Result : Sql → Type
  | selectById _ => Option Actor
  | _ => Unit

def Sql.exec : (s : Sql) → Unit → Db → Except NoombatError s.Result × Db
  | selectById id, _, db => (.ok (db id), db)
  | updateProfile id profile, _, db =>
      (.ok (), db.modify id fun actor => if actor.isLocal then { actor with profile } else actor)
  | setAvatarUrl id url, _, db =>
      (.ok (), db.modify id fun actor =>
        { actor with profile := fun f => if f = .avatarUrl then url else actor.profile f })
  | tombstone id, _, db =>
      (.ok (), db.modify id fun actor => { actor with profile := fun _ => none })

abbrev Profiling : Interface :=
  Interface.fallible NoombatError Sql Sql.Result

/-- Each statement takes effect at once, or fails. -/
def profileWorld : World Profiling Db :=
  World.failing NoombatError Sql.exec

abbrev Op (α : Type) : Type :=
  Fallible Profiling NoombatError α

/-! ### Operations -/

def findById (id : Uuid) : Op Actor := do
  match ← (ask (Sql.selectById id) : Op _) with
  | none => throw (.notFound "actor" id)
  | some actor => return actor

/-- The columns that an edit sets; a column that is set to nothing is cleared. -/
abbrev UpdateActor : Type :=
  Field → Option (Option String)

/-- The row with the columns that are set. -/
def UpdateActor.merge (params : UpdateActor) (current : Profile) : Profile :=
  fun f => (params f).getD (current f)

def updateActor (id : Uuid) (params : UpdateActor) : Op Actor := do
  let current ← findById id
  if !current.isLocal then throw (.badRequest "cannot update a remote actor")
  ask (Sql.updateProfile id (params.merge current.profile))
  findById id

def tombstoneActor (id : Uuid) : Op Actor := do
  let actor ← findById id
  if !actor.isLocal then throw (.badRequest "cannot delete a remote actor")
  ask (Sql.tombstone id)
  return actor

structure PatchActorBody where
  displayName : Option String
  headline : Option String
  location : Option String
  summaryMd : Option String

/-- What a request sets: the fields it has, and the summary as it was rendered. -/
def PatchActorBody.params (body : PatchActorBody) (summaryHtml : Option String) : UpdateActor
  | .displayName => body.displayName.map some
  | .headline => body.headline.map some
  | .location => body.location.map some
  | .summaryMd => body.summaryMd.map some
  | .summaryHtml => summaryHtml.map some
  | .avatarUrl => none
  | .headerUrl => none

/-- The summary of a request, rendered, if there is one. -/
def PatchActorBody.rendered (render : String → Except NoombatError String)
    (body : PatchActorBody) : Except NoombatError (Option String) :=
  match body.summaryMd with
  | none => .ok none
  | some md => (render md).map some

/-- Edit an actor as a request says. -/
def patchActor (render : String → Except NoombatError String) (id : Uuid)
    (body : PatchActorBody) : Op Actor := do
  let summaryHtml ← MonadExcept.ofExcept (body.rendered render)
  updateActor id (body.params summaryHtml)

/-- The operations on profiles, in any order. -/
inductive Call where
  | edit (id : Uuid) (params : UpdateActor)
  | patch (id : Uuid) (body : PatchActorBody)
  | setAvatar (id : Uuid) (url : Option String)
  | erase (id : Uuid)

section

variable (render : String → Except NoombatError String)

def Call.program : Call → Program Profiling Unit
  | edit id params => do let _ ← (updateActor id params).run
  | patch id body => do let _ ← (patchActor render id body).run
  | setAvatar id url => do let _ ← (ask (Sql.setAvatarUrl id url) : Op Unit).run
  | erase id => do let _ ← (tombstoneActor id).run

/-- What an edit sets. -/
def Call.params : Call → UpdateActor
  | edit _ params => params
  | patch _ body => body.params ((body.rendered render).toOption.getD none)
  | _ => fun _ => none

/-! ### What was set last -/

abbrev Event : Type :=
  Interface.Event Profiling Call

abbrev Profiled : Type :=
  Pool Profiling Call Db

/-- The exchange erases an actor. -/
def erases (id : Uuid) : Profiling.Exchange → Bool
  | ⟨.tombstone id', .ok ()⟩ => id' == id
  | _ => false

/-- An actor was erased after the last exchange of the thread. -/
def erasedSince (i : Nat) (id : Uuid) : Profiling.History Call → Bool
  | [] => false
  | e :: h => e.thread != i && (erases id e.exchange || erasedSince i id h)

/-- What an event sets a column of an actor to, if it sets it: an edit that was under way when
the actor was erased sets nothing. -/
def sets (id : Uuid) (f : Field) (e : Event) (h : Profiling.History Call) :
    Option (Option String) :=
  match e.exchange with
  | ⟨.updateProfile id' _, .ok ()⟩ =>
      if id' = id ∧ erasedSince e.thread id h = false then e.task.params render f else none
  | ⟨.setAvatarUrl id' url, .ok ()⟩ => if id' = id ∧ f = .avatarUrl then some url else none
  | ⟨.tombstone id', .ok ()⟩ => if id' = id then some none else none
  | _ => none

/-- The value that a column of an actor was set to last, or the one it had at the start. -/
def lastSet (start : Option String) (id : Uuid) (f : Field) :
    Profiling.History Call → Option String
  | [] => start
  | e :: h => (sets render id f e h).getD (lastSet start id f h)

/-- Every column of every local actor has the value it was set to last. -/
def Kept (db : Db) (s : Profiled) : Prop :=
  ∀ id actor, s.state id = some actor → actor.isLocal = true → ∀ f,
    actor.profile f = lastSet render ((db id).bind fun actor => actor.profile f) id f s.history

/-- No edit writes back what has changed since it was read: the columns that it does not set are
as it writes them already, and if the actor was erased since, all columns are. -/
def Unspoilt : StepCondition profileWorld Call
  | i, t, .updateProfile id profile, .ok _, s => ∀ actor, s.state id = some actor →
      (∀ f, t.params render f = none → actor.profile f = profile f) ∧
        (erasedSince i id s.history = true → ∀ f, actor.profile f = profile f)
  | _, _, _, _, _ => True

end

instance Unspoilt.decidable (render : String → Except NoombatError String) :
    ∀ (i : Nat) (t : Call) (q : Sql) (c : profileWorld.Choice q) (s : Profiled),
      Decidable (Unspoilt render i t q c s)
  | i, t, .updateProfile id profile, .ok _, s =>
      inferInstanceAs (Decidable (∀ actor ∈ s.state id,
        (∀ f, t.params render f = none → actor.profile f = profile f) ∧
          (erasedSince i id s.history = true → ∀ f, actor.profile f = profile f)))
  | _, _, .updateProfile _ _, .error _, _ => isTrue trivial
  | _, _, .selectById _, _, _ => isTrue trivial
  | _, _, .setAvatarUrl _ _, _, _ => isTrue trivial
  | _, _, .tombstone _, _, _ => isTrue trivial

/-! ### What the operations ask -/

variable {render : String → Except NoombatError String}

section

variable (render)

/-- An edit writes the columns it sets, and others as it has read them. -/
def Asked (t : Call) (_ : List Profiling.Exchange) : Sql → Prop
  | .updateProfile _ profile => ∃ current, profile = (t.params render).merge current
  | _ => True

end

variable {t : Call} {l : List Profiling.Exchange}

theorem asks_findById {Post : Except NoombatError Actor → List Profiling.Exchange → Prop}
    {id : Uuid} (h : ∀ r l', Post r l') :
  Asks (Asked render t) Post (findById id).run l
  := by
  rw [findById, asks_run_bind]
  apply (asks_run_ask (Sql.selectById id) _ l).mpr
  refine ⟨trivial, ?_⟩
  rintro (e | _ | actor)
  · apply h
  · rw [onExcept_ok, asks_run_throw]
    apply h
  · rw [onExcept_ok, asks_run_pure]
    apply h

theorem asks_updateActor {id : Uuid} {params : UpdateActor} (ht : t.params render = params) :
  Asks (Asked render t) (fun _ _ => True) (updateActor id params).run l
  := by
  rw [updateActor, asks_run_bind]
  apply asks_findById
  rintro (e | current) l'
  · trivial
  · rw [onExcept_ok]
    cases current.isLocal with
    | false => trivial
    | true =>
        simp only [Bool.not_true, Bool.false_eq_true, if_false]
        rw [asks_run_bind]
        apply (asks_run_ask (Sql.updateProfile id _) _ l').mpr
        constructor
        · exact ⟨current.profile, by rw [ht]⟩
        · rintro (e | _)
          · trivial
          · apply asks_findById
            intro _ _
            trivial

theorem asks_program (t : Call) :
  Asks (Asked render t) (fun _ _ => True) (t.program render) []
  := by
  cases t with
  | edit id params =>
      rw [Call.program, asks_bind]
      apply Asks.mono _ (asks_updateActor rfl)
      intro _ _ _
      trivial
  | patch id body =>
      rw [Call.program, asks_bind, patchActor, asks_run_bind, asks_run_ofExcept]
      cases hrendered : body.rendered render with
      | error e => trivial
      | ok summaryHtml =>
          rw [onExcept_ok]
          apply Asks.mono _ (asks_updateActor _)
          · intro _ _ _
            trivial
          · rw [Call.params, hrendered]
            rfl
  | setAvatar id url =>
      rw [Call.program, asks_bind]
      apply (asks_run_ask (Sql.setAvatarUrl id url) _ _).mpr
      exact ⟨trivial, fun _ => trivial⟩
  | erase id =>
      rw [Call.program, asks_bind, tombstoneActor, asks_run_bind]
      apply asks_findById
      rintro (e | actor) l'
      · trivial
      · rw [onExcept_ok]
        cases actor.isLocal with
        | false => trivial
        | true =>
            simp only [Bool.not_true, Bool.false_eq_true, if_false]
            rw [asks_run_bind]
            apply (asks_run_ask (Sql.tombstone id) _ l').mpr
            refine ⟨trivial, ?_⟩
            rintro (e | _)
            · trivial
            · trivial

/-! ### Whole histories -/

section

variable {db : Db} {s : Profiled} {i : Nat} {q : Sql}
  {k : Profiling.Answer q → Program Profiling Unit} {c : profileWorld.Choice q}

/-- An exchange that sets nothing and changes nothing. -/
theorem Kept.quiet (h : Kept render db s) (hstate : (profileWorld.exec q c s.state).2 = s.state)
    (hsets : ∀ id f,
      sets render id f ⟨i, t, q, (profileWorld.exec q c s.state).1⟩ s.history = none) :
  Kept render db (s.exchange profileWorld i t q k c)
  := by
  intro id actor hactor hlocal f
  rw [Pool.exchange] at hactor ⊢
  rw [hstate] at hactor
  rw [lastSet, hsets, Option.getD_none]
  apply h id actor hactor hlocal

/-- An exchange that changes one row as it sets its columns. -/
theorem Kept.modify {id : Uuid} {g : Actor → Actor} (h : Kept render db s)
    (hstate : (profileWorld.exec q c s.state).2 = s.state.modify id g)
    (hother : ∀ id' f, id' ≠ id →
      sets render id' f ⟨i, t, q, (profileWorld.exec q c s.state).1⟩ s.history = none)
    (hlocal : ∀ actor, (g actor).isLocal = actor.isLocal)
    (hsets : ∀ actor, s.state id = some actor → actor.isLocal = true → ∀ f,
      (g actor).profile f =
        (sets render id f ⟨i, t, q, (profileWorld.exec q c s.state).1⟩ s.history).getD
          (actor.profile f)) :
  Kept render db (s.exchange profileWorld i t q k c)
  := by
  intro id' actor' hactor' hlocal' f
  rw [Pool.exchange] at hactor' ⊢
  rw [hstate] at hactor'
  change (if id' = id then (s.state id).map g else s.state id') = some actor' at hactor'
  rw [lastSet]
  split at hactor'
  · rename_i hid
    subst hid
    obtain ⟨actor, hactor, rfl⟩ := Option.map_eq_some_iff.mp hactor'
    rw [hlocal] at hlocal'
    rw [hsets actor hactor hlocal' f, h id' actor hactor hlocal' f]
  · rename_i hid
    rw [hother id' f hid, Option.getD_none]
    apply h id' actor' hactor' hlocal'

/-- The step lemma: an exchange that writes nothing back keeps every column at the value that
was set last. -/
theorem kept_exchange (h : Kept render db s) (hasked : Asked render t (s.history.trace i) q)
    (hC : Unspoilt render i t q c s) :
  Kept render db (s.exchange profileWorld i t q k c)
  := by
  cases c with
  | error e =>
      apply h.quiet rfl
      intro id f
      cases q with
      | _ => rfl
  | ok u =>
      cases q with
      | selectById id =>
          apply h.quiet rfl
          intro id' f
          rfl
      | setAvatarUrl id url =>
          apply h.modify rfl
          · intro id' f hne
            exact if_neg fun hset => hne hset.1.symm
          · intro actor
            rfl
          · intro actor _ _ f
            change _ = (if id = id ∧ f = .avatarUrl then some url else none).getD _
            by_cases hf : f = .avatarUrl
            · simp [hf]
            · simp [hf]
      | tombstone id =>
          apply h.modify rfl
          · intro id' f hne
            exact if_neg fun hset => hne hset.symm
          · intro actor
            rfl
          · intro actor _ _ f
            change _ = (if id = id then some none else none).getD _
            rw [if_pos rfl]
            rfl
      | updateProfile id profile =>
          obtain ⟨current, rfl⟩ := hasked
          apply h.modify rfl
          · intro id' f hne
            exact if_neg fun hset => hne hset.1.symm
          · intro actor
            split
            · rfl
            · rfl
          · intro actor hactor hlocal f
            obtain ⟨hunset, herased⟩ := hC actor hactor
            rw [if_pos hlocal]
            change (t.params render).merge current f =
              (if id = id ∧ erasedSince i id s.history = false then t.params render f
                else none).getD _
            cases hsince : erasedSince i id s.history with
            | true =>
                rw [if_neg (by simp), Option.getD_none]
                exact (herased hsince f).symm
            | false =>
                rw [if_pos ⟨rfl, rfl⟩]
                cases hset : t.params render f with
                | none => exact (hunset f hset).symm
                | some v => rw [UpdateActor.merge, hset, Option.getD_some, Option.getD_some]

end

/-- In every interleaving in which no edit writes back what has changed since it was read, every
column keeps the value that was set last, and no edit that was under way when an actor was
erased puts anything back. -/
theorem profiles_kept (render : String → Except NoombatError String) (db : Db) (s : Profiled)
    (h : Reaches profileWorld (Call.program render) (Unspoilt render) (.initial db) s) :
  Kept render db s
  := by
  have hinitial : Kept render db (.initial db) := by
    intro id actor hactor _ f
    change _ = (Option.bind (db id) fun actor => actor.profile f)
    rw [show db id = some actor from hactor]
    rfl
  apply (Step.inv (Kept render db) asks_program _ _
    (Pool.initial_disciplined _ _) hinitial h).2
  · intro s t hs
    exact hs
  · intro s i t q k c _ hs _ hasked hC
    apply kept_exchange hs hasked hC

/-! ### Edits that cross -/

/-- Ann has an empty profile. -/
def ann : Db :=
  fun id => if id = 1 then some ⟨true, fun _ => none⟩ else none

/-- An edit of one field. -/
def setting (f : Field) (value : String) : Call :=
  .edit 1 fun f' => if f' = f then some (some value) else none

/-- What the summary is rendered to. -/
def renderPlain (md : String) : Except NoombatError String :=
  .ok md

/-- The thread `i` makes its next `n` requests, none of which fails. -/
def turns (i n : Nat) : List (Turn profileWorld Call) :=
  List.replicate n (.exchange i fun _ => .ok ())

/-- Ann sets her name, and then her headline. -/
def inTurn : List (Turn profileWorld Call) :=
  .start (setting .displayName "Ann") :: turns 0 3 ++
    .start (setting .headline "Engineer") :: turns 1 3

/-- Ann sets her name and her headline at once. -/
def atOnce : List (Turn profileWorld Call) :=
  .start (setting .displayName "Ann") :: .start (setting .headline "Engineer") ::
    (turns 0 1 ++ turns 1 1 ++ turns 0 1 ++ turns 1 1)

/-- Ann sets her name while her account is erased. -/
def whileErased : List (Turn profileWorld Call) :=
  .start (setting .displayName "Ann") :: .start (.erase 1) :: (turns 0 1 ++ turns 1 2 ++ turns 0 1)

/-- What Ann has set, one thing after another. -/
theorem profiles_kept_ann :
  ∃ s, Reaches profileWorld (Call.program renderPlain) (Unspoilt renderPlain) (.initial ann) s ∧
    (∃ actor, s.state 1 = some actor ∧ actor.profile .displayName = some "Ann" ∧
      actor.profile .headline = some "Engineer") ∧
    Kept renderPlain ann s
  := by
  have hplayed : ((Pool.initial ann).play profileWorld (Call.program renderPlain)
      (Unspoilt renderPlain) inTurn).map (fun s => (s.state 1).any fun actor =>
        actor.profile .displayName == some "Ann" && actor.profile .headline == some "Engineer") =
      some true := by
    decide +kernel
  obtain ⟨s, hs, hset⟩ := Option.map_eq_some_iff.mp hplayed
  obtain ⟨actor, hactor, hset⟩ := (Option.any_eq_true _ _).mp hset
  rw [Bool.and_eq_true, beq_iff_eq, beq_iff_eq] at hset
  have hreaches := Pool.reaches_of_play _ _ _ hs
  exact ⟨s, hreaches, ⟨actor, hactor, hset⟩, profiles_kept renderPlain ann s hreaches⟩

/-- An edit of the headline undoes one of the name, and an edit puts a name back on a row that was
erased. -/
theorem edits_undo :
  (∃ s, Reaches profileWorld (Call.program renderPlain) (fun _ _ _ _ _ => True) (.initial ann) s ∧
    ¬ Kept renderPlain ann s) ∧
  ∃ s, Reaches profileWorld (Call.program renderPlain) (fun _ _ _ _ _ => True) (.initial ann) s ∧
    (∃ e ∈ s.history, erases 1 e.exchange = true) ∧
    ∃ actor, s.state 1 = some actor ∧ actor.profile .displayName = some "Ann"
  := by
  constructor
  · have hplayed : ((Pool.initial ann).play profileWorld (Call.program renderPlain)
        (fun _ _ _ _ _ => True) atOnce).map (fun s =>
          (s.state 1).any (fun actor => actor.isLocal && actor.profile .displayName == none) &&
            lastSet renderPlain none 1 .displayName s.history == some "Ann") = some true := by
      decide +kernel
    obtain ⟨s, hs, hundone⟩ := Option.map_eq_some_iff.mp hplayed
    rw [Bool.and_eq_true, beq_iff_eq] at hundone
    obtain ⟨hundone, hlast⟩ := hundone
    obtain ⟨actor, hactor, hundone⟩ := (Option.any_eq_true _ _).mp hundone
    rw [Bool.and_eq_true, beq_iff_eq] at hundone
    refine ⟨s, Pool.reaches_of_play _ _ _ hs, ?_⟩
    intro hkept
    have hname := hkept 1 actor hactor hundone.1 .displayName
    change _ = lastSet renderPlain none 1 .displayName s.history at hname
    rw [hlast, hundone.2] at hname
    cases hname
  · have hplayed : ((Pool.initial ann).play profileWorld (Call.program renderPlain)
        (fun _ _ _ _ _ => True) whileErased).map (fun s =>
          (s.state 1).any (fun actor => actor.profile .displayName == some "Ann") &&
            s.history.any fun e => erases 1 e.exchange) = some true := by
      decide +kernel
    obtain ⟨s, hs, hback⟩ := Option.map_eq_some_iff.mp hplayed
    rw [Bool.and_eq_true] at hback
    obtain ⟨hname, herased⟩ := hback
    obtain ⟨actor, hactor, hname⟩ := (Option.any_eq_true _ _).mp hname
    refine ⟨s, Pool.reaches_of_play _ _ _ hs, List.any_eq_true.mp herased, actor, hactor, ?_⟩
    exact beq_iff_eq.mp hname

end Identity.Profiles
