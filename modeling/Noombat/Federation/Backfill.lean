import Mathlib.Data.List.Sort
import Mathlib.Algebra.Order.Group.Nat
import Noombat.Federation.Content

/-!
# The backfill of sanitised content

At every start of the server the rows of remote actors and posts whose content was sanitised under
an older policy are read in batches and rewritten one by one.  A statement that fails ends the
sweep over its table.  A sweep is said of any rows that become fresh when they are rewritten.
-/

namespace Federation.Backfill

/-! ### Sweeps -/

/-- Rows of a state that are stale until they are rewritten. -/
structure Sweep (σ ρ : Type) where
  rows : σ → List ρ
  id : ρ → Nat
  stale : σ → ρ → Bool
  /-- A row that is written by what was read of it. -/
  change : ρ → ρ → ρ
  put : ρ → σ → σ
  nodup : ∀ s, ((rows s).map id).Nodup
  id_change : ∀ r r', id (change r r') = id r'
  fresh : ∀ s r, stale s (change r r) = false
  rows_put : ∀ r s, rows (put r s) = (rows s).map fun r' => if id r' = id r then change r r' else r'
  stale_put : ∀ r s, stale (put r s) = stale s

/-- How a batch fares: it is not read, a statement fails after others, or none fails. -/
inductive Outcome where
  | unread
  | stops (after : Nat)
  | completes

namespace Sweep

variable {σ ρ : Type} (S : Sweep σ ρ) (limit : Nat)

/-- The rows of a batch. -/
def read (s : σ) : List ρ :=
  (((S.rows s).filter (S.stale s)).insertionSort fun r r' => S.id r ≤ S.id r').take limit

def putAll (rows : List ρ) (s : σ) : σ :=
  rows.foldl (fun s r => S.put r s) s

/-- A batch, and how many rows it has rewritten if nothing failed. -/
def batch (o : Outcome) (s : σ) : Option Nat × σ :=
  match o with
  | .unread => (none, s)
  | .stops n =>
      if n < (S.read limit s).length then (none, S.putAll ((S.read limit s).take n) s)
      else (some (S.read limit s).length, S.putAll (S.read limit s) s)
  | .completes => (some (S.read limit s).length, S.putAll (S.read limit s) s)

def count (s : σ) : Nat :=
  (S.rows s).countP (S.stale s)

/-- A state after some of the stale rows of another one have been rewritten. -/
def Along (s s' : σ) : Prop :=
  S.stale s' = S.stale s ∧ ∃ p : ρ → Bool,
    S.rows s' = (S.rows s).map fun r => if p r && S.stale s r then S.change r r else r

variable {S} {limit} {s s' s'' : σ}

theorem Along.refl (s : σ) :
  S.Along s s
  := by
  refine ⟨rfl, fun _ => false, ?_⟩
  simp

theorem Along.trans (h : S.Along s s') (h' : S.Along s' s'') :
  S.Along s s''
  := by
  obtain ⟨hstale, p, hrows⟩ := h
  obtain ⟨hstale', p', hrows'⟩ := h'
  refine ⟨hstale'.trans hstale, fun r => p r || p' r, ?_⟩
  rw [hrows', hrows, hstale, List.map_map]
  apply List.map_congr_left
  intro r _
  rw [Function.comp_apply]
  cases hp : p r && S.stale s r with
  | true =>
      obtain ⟨hp, hr⟩ := Bool.and_eq_true_iff.mp hp
      simp [hp, hr, S.fresh s r]
  | false =>
      cases hr : S.stale s r with
      | true =>
          rw [hr, Bool.and_true] at hp
          simp [hp, hr]
      | false => simp [hr]

theorem Along.count_le (h : S.Along s s') :
  S.count s' ≤ S.count s
  := by
  obtain ⟨hstale, p, hrows⟩ := h
  rw [count, count, hrows, hstale, List.countP_map]
  apply List.countP_mono_left
  intro r _ hr
  rw [Function.comp_apply] at hr
  split at hr
  · rw [S.fresh] at hr
    cases hr
  · exact hr

theorem along_put {r : ρ} (hr : r ∈ S.rows s) (hstale : S.stale s r = true) :
  S.Along s (S.put r s)
  := by
  refine ⟨S.stale_put r s, fun r' => decide (S.id r' = S.id r), ?_⟩
  rw [S.rows_put]
  apply List.map_congr_left
  intro r' hr'
  by_cases hid : S.id r' = S.id r
  · obtain rfl := List.inj_on_of_nodup_map (S.nodup s) hr' hr hid
    simp [hstale]
  · simp [hid]

theorem count_put_lt {r : ρ} (hr : r ∈ S.rows s) (hstale : S.stale s r = true) :
  S.count (S.put r s) < S.count s
  := by
  have hle : ∀ l : List ρ, (∀ r' ∈ l, r' ∈ S.rows s) →
      (l.map fun r' => if S.id r' = S.id r then S.change r r' else r').countP (S.stale s) ≤
        l.countP (S.stale s) := by
    intro l hl
    rw [List.countP_map]
    apply List.countP_mono_left
    intro r' hr' hr''
    rw [Function.comp_apply] at hr''
    split at hr''
    · rename_i hid
      obtain rfl := List.inj_on_of_nodup_map (S.nodup s) (hl r' hr') hr hid
      exact hstale
    · exact hr''
  obtain ⟨front, back, hsplit⟩ := List.append_of_mem hr
  have hfront := hle front fun r' hr' => by simp [hsplit, hr']
  have hback := hle back fun r' hr' => by simp [hsplit, hr']
  rw [count, count, S.stale_put, S.rows_put, hsplit, List.map_append, List.map_cons,
    List.countP_append, List.countP_append, List.countP_cons, List.countP_cons, if_pos rfl, hstale,
    S.fresh]
  simp only [Bool.false_eq_true, if_false, if_true]
  omega

theorem along_putAll {rows : List ρ} (hmem : ∀ r ∈ rows, r ∈ S.rows s ∧ S.stale s r = true)
    (hnodup : (rows.map S.id).Nodup) :
  S.Along s (S.putAll rows s) ∧ (rows ≠ [] → S.count (S.putAll rows s) < S.count s)
  := by
  induction rows generalizing s with
  | nil => exact ⟨.refl s, fun h => absurd rfl h⟩
  | cons r rows ih =>
      obtain ⟨hr, hstale⟩ := hmem r List.mem_cons_self
      obtain ⟨hnot, hnodup⟩ := List.nodup_cons.mp hnodup
      have hrest := (ih (by
        intro r' hr'
        obtain ⟨hmem', hstale'⟩ := hmem r' (List.mem_cons_of_mem _ hr')
        constructor
        · rw [S.rows_put]
          exact List.mem_map.mpr ⟨r', hmem', if_neg fun hid : S.id r' = S.id r =>
            hnot (hid ▸ List.mem_map_of_mem hr')⟩
        · rw [S.stale_put]
          exact hstale') hnodup).1
      constructor
      · exact (along_put hr hstale).trans hrest
      · intro _
        exact Nat.lt_of_le_of_lt hrest.count_le (count_put_lt hr hstale)

theorem of_mem_read {r : ρ} (h : r ∈ S.read limit s) :
  r ∈ S.rows s ∧ S.stale s r = true
  := List.mem_filter.mp ((List.mem_insertionSort _).mp (List.mem_of_mem_take h))

theorem nodup_read :
  ((S.read limit s).map S.id).Nodup
  := by
  apply List.Nodup.sublist ((List.take_sublist _ _).map _)
  apply ((List.perm_insertionSort _ _).map _).nodup_iff.mpr
  exact (S.nodup s).sublist (List.filter_sublist.map _)

/-- A batch rewrites some stale rows, and if nothing failed all that it has read. -/
theorem along_batch (o : Outcome) :
  S.Along s (S.batch limit o s).2 ∧ ∀ n, (S.batch limit o s).1 = some n →
    n = (S.read limit s).length ∧ (n ≠ 0 → S.count (S.batch limit o s).2 < S.count s)
  := by
  obtain ⟨hall, hlt⟩ := along_putAll (fun r hr => of_mem_read hr) (nodup_read (S := S))
  have hdone : ∀ n, some (S.read limit s).length = some n → n = (S.read limit s).length ∧
      (n ≠ 0 → S.count (S.putAll (S.read limit s) s) < S.count s) := by
    rintro n ⟨⟩
    exact ⟨rfl, fun hn => hlt fun hnil => hn (by rw [hnil]; rfl)⟩
  cases o with
  | unread => exact ⟨.refl s, fun n hn => by cases hn⟩
  | completes => exact ⟨hall, hdone⟩
  | stops n =>
      rw [batch]
      split
      · constructor
        · apply (along_putAll _ _).1
          · intro r hr
            exact of_mem_read (List.mem_of_mem_take hr)
          · exact nodup_read.sublist ((List.take_sublist _ _).map _)
        · intro n hn
          cases hn
      · exact ⟨hall, hdone⟩

variable (S limit) in
/-- Rewrite batches until one is empty or fails, and count the rows of those that did not. -/
def run (script : Nat → Outcome) (i : Nat) (s : σ) : Nat × σ :=
  match h : (S.batch limit (script i) s).1 with
  | some (n + 1) =>
      let rest := run script (i + 1) (S.batch limit (script i) s).2
      (n + 1 + rest.1, rest.2)
  | _ => (0, (S.batch limit (script i) s).2)
termination_by S.count s
decreasing_by exact ((along_batch _).2 _ h).2 (Nat.succ_ne_zero n)

variable {script : Nat → Outcome} {i : Nat}

theorem along_run :
  S.Along s (S.run limit script i s).2
  := by
  fun_induction run S limit script i s with
  | case1 i s n h rest ih => exact (along_batch _).1.trans ih
  | case2 i s h => exact (along_batch _).1

theorem run_inv {P : σ → Prop} (hput : ∀ r s, P s → P (S.put r s)) (hs : P s) :
  P (S.run limit script i s).2
  := by
  have hbatch : ∀ (o : Outcome) (s : σ), P s → P (S.batch limit o s).2 := by
    intro o s hs
    have hall : ∀ rows, P (S.putAll rows s) := fun rows =>
      List.foldlRecOn rows _ hs fun s hs r _ => hput r s hs
    cases o with
    | unread => exact hs
    | completes => exact hall _
    | stops n =>
        rw [batch]
        split
        · exact hall _
        · exact hall _
  fun_induction run S limit script i s with
  | case1 i s n h rest ih => exact ih (hbatch _ s hs)
  | case2 i s h => exact hbatch _ s hs

theorem count_eq_zero (hlimit : 0 < limit) (h : (S.read limit s).length = 0) :
  S.count s = 0
  := by
  rw [read, List.length_take, List.length_insertionSort] at h
  rw [count, List.countP_eq_length_filter]
  omega

/-- A sweep in which nothing fails leaves nothing stale. -/
theorem count_run (hlimit : 0 < limit) (hscript : ∀ i, script i = .completes) :
  S.count (S.run limit script i s).2 = 0
  := by
  fun_induction run S limit script i s with
  | case1 i s n h rest ih => exact ih
  | case2 i s h =>
      rw [hscript] at h ⊢
      cases hlength : (S.read limit s).length with
      | zero => exact Nat.le_zero.mp ((along_batch _).1.count_le.trans
          (count_eq_zero hlimit hlength).le)
      | succ n => exact absurd (congrArg some hlength) (h n)

theorem run_of_count (hscript : ∀ i, script i = .completes) (h : S.count s = 0) :
  S.run limit script i s = (0, s)
  := by
  have hread : S.read limit s = [] := by
    apply List.eq_nil_iff_forall_not_mem.mpr
    intro r hr
    obtain ⟨hr, hstale⟩ := of_mem_read hr
    exact List.countP_eq_zero.mp h r hr hstale
  rw [run, hscript, batch, hread]
  rfl

theorem rows_of_count (h : S.Along s s') (hcount : S.count s' = 0) :
  S.rows s' = (S.rows s).map fun r => if S.stale s r then S.change r r else r
  := by
  obtain ⟨hstale, p, hrows⟩ := h
  rw [hrows]
  apply List.map_congr_left
  intro r hr
  cases hr' : S.stale s r with
  | false => simp
  | true =>
      cases hp : p r with
      | true => simp
      | false =>
          have hmem : r ∈ S.rows s' := by
            rw [hrows]
            exact List.mem_map.mpr ⟨r, hr, by simp [hp]⟩
          exact absurd (hstale ▸ hr') (List.countP_eq_zero.mp hcount r hmem)

end Sweep

/-! ### Posts and actors -/

structure Tables where
  posts : Table Post.Apart
  actors : Table Actor.Apart

def Tables.isRemote (t : Tables) (p : Post) : Bool :=
  t.actors.rows.any fun a => a.id == p.actorId && !a.isLocal

def BATCH : Nat :=
  500

variable (ext : External)

/-- The content of a post, from the document that was stored with it if that has content. -/
def rederive (p : Post) : PostChange :=
  if (p.apObject.get "content").isSome then
    let content := extractRemoteContent ext p.apObject
    .resanitise content.contentHtml (some content.contentMd) strictVersion
  else .resanitise (sanitiseRemoteHtml ext p.contentHtml) none strictVersion

def reclean (r a : Actor) : Actor :=
  { a with
    summaryHtml := r.summaryHtml.map (sanitiseRemoteHtml ext)
    sanitiserVersion := strictVersion }

def backfillPosts : Sweep Tables Post where
  rows t := t.posts.rows
  id p := p.id
  stale t p := decide (p.sanitiserVersion < strictVersion) && t.isRemote p
  change r p := (rederive ext r).apply p
  put r t :=
    { t with posts := t.posts.update (·.id == r.id) (rederive ext r).apply (rederive ext r).keeps }
  nodup t := List.pairwise_map.mpr (t.posts.apart.imp And.left)
  id_change r p := (rederive ext r).id_apply p
  fresh t r := by
    rw [rederive]
    split
    · rfl
    · rfl
  rows_put r t := by
    apply List.map_congr_left
    intro p _
    simp only [beq_iff_eq]
  stale_put _ _ := rfl

def backfillActors : Sweep Tables Actor where
  rows t := t.actors.rows
  id a := a.id
  stale _ a := decide (a.sanitiserVersion < strictVersion) && !a.isLocal
  change := reclean ext
  put r t :=
    { t with actors := t.actors.update (·.id == r.id) (reclean ext r) fun _ _ h => ⟨h, h, h⟩ }
  nodup t := List.pairwise_map.mpr (t.actors.apart.imp And.left)
  id_change _ _ := rfl
  fresh _ _ := rfl
  rows_put r t := by
    apply List.map_congr_left
    intro a _
    simp only [beq_iff_eq]
  stale_put _ _ := rfl

structure BackfillReport where
  postsUpdated : Nat
  actorsUpdated : Nat

/-- How the batches of one start of the server fare. -/
structure Boot where
  posts : Nat → Outcome
  actors : Nat → Outcome

def Boot.undisturbed : Boot :=
  ⟨fun _ => .completes, fun _ => .completes⟩

def run (b : Boot) (t : Tables) : BackfillReport × Tables :=
  let posts := (backfillPosts ext).run BATCH b.posts 0 t
  let actors := (backfillActors ext).run BATCH b.actors 0 posts.2
  (⟨posts.1, actors.1⟩, actors.2)

/-- What starts of the server leave of the tables. -/
structure Along (t t' : Tables) : Prop where
  posts : (backfillPosts ext).Along t t'
  actors : (backfillActors ext).Along t t'

variable {ext} {t t' t'' : Tables}

theorem Along.trans (h : Along ext t t') (h' : Along ext t' t'') :
  Along ext t t''
  := ⟨h.posts.trans h'.posts, h.actors.trans h'.actors⟩

theorem actors_posts (script : Nat → Outcome) :
  ((backfillPosts ext).run BATCH script 0 t).2.actors = t.actors
  := Sweep.run_inv (S := backfillPosts ext) (P := fun t' => t'.actors = t.actors)
    (fun _ _ h => h) rfl

theorem posts_actors (script : Nat → Outcome) :
  ((backfillActors ext).run BATCH script 0 t).2.posts = t.posts
  := Sweep.run_inv (S := backfillActors ext) (P := fun t' => t'.posts = t.posts)
    (fun _ _ h => h) rfl

theorem along_posts (script : Nat → Outcome) :
  Along ext t ((backfillPosts ext).run BATCH script 0 t).2
  := by
  refine ⟨Sweep.along_run, rfl, fun _ => false, ?_⟩
  simp [backfillActors, actors_posts]

theorem along_actors (script : Nat → Outcome) :
  Along ext t ((backfillActors ext).run BATCH script 0 t).2
  := by
  have hactors : (backfillActors ext).Along t ((backfillActors ext).run BATCH script 0 t).2 :=
    Sweep.along_run
  refine ⟨⟨?_, fun _ => false, ?_⟩, hactors⟩
  · obtain ⟨-, p, hrows⟩ := hactors
    funext post
    change (_ && List.any (Sweep.rows (backfillActors ext) _) _) = (_ && List.any t.actors.rows _)
    rw [hrows, List.any_map]
    congr 2
    funext a
    rw [Function.comp_apply]
    split
    · rfl
    · rfl
  · simp [backfillPosts, posts_actors]

theorem along_run (b : Boot) :
  Along ext t (run ext b t).2
  := (along_posts b.posts).trans (along_actors b.actors)

variable (ext) in
/-- However often the server was stopped amid the backfill, or a statement failed, a start at which
none fails leaves each remote post and actor under the policy in force, with what is derived from
what was there at first; no other row and nothing else is changed, and the next start does
nothing. -/
theorem backfill_resumes (boots : List Boot) (t : Tables) :
  let t' := (run ext .undisturbed (boots.foldl (fun t b => (run ext b t).2) t)).2
  t'.posts.rows = t.posts.rows.map (fun p =>
    if p.sanitiserVersion < strictVersion ∧ t.isRemote p = true then (rederive ext p).apply p
    else p) ∧
  t'.actors.rows = t.actors.rows.map (fun a =>
    if a.sanitiserVersion < strictVersion ∧ a.isLocal = false then reclean ext a a else a) ∧
  run ext .undisturbed t' = (⟨0, 0⟩, t')
  := by
  have hboots : ∀ t, Along ext t (boots.foldl (fun t b => (run ext b t).2) t) := by
    induction boots with
    | nil => exact fun t => ⟨.refl t, .refl t⟩
    | cons b boots ih => exact fun t => (along_run b).trans (ih _)
  intro t'
  have halong : Along ext t t' := (hboots t).trans (along_run .undisturbed)
  have hactors : (backfillActors ext).count t' = 0 :=
    Sweep.count_run (Nat.succ_pos _) fun _ => rfl
  have hposts : (backfillPosts ext).count t' = 0 := by
    apply Nat.le_zero.mp
    apply Nat.le_trans (along_actors (fun _ => .completes)).posts.count_le
    exact (Sweep.count_run (Nat.succ_pos _) fun _ => rfl).le
  refine ⟨?_, ?_, ?_⟩
  · have hrows := Sweep.rows_of_count halong.posts hposts
    simpa [backfillPosts] using hrows
  · have hrows := Sweep.rows_of_count halong.actors hactors
    simpa [backfillActors] using hrows
  · rw [run, Boot.undisturbed, Sweep.run_of_count (fun _ => rfl) hposts,
      Sweep.run_of_count (fun _ => rfl) hactors]

end Federation.Backfill
