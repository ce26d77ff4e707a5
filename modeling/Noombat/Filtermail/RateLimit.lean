import Mathlib.Algebra.Order.Group.Nat
import Noombat.Gcra
import Noombat.Filtermail.Session

/-!
# The rate limit of a sender

The limiter keeps one bucket for each sender, and forgets the buckets that are due no later than
now.  For each sender it answers as the generic cell rate algorithm does on the calls of that
sender alone.
-/

namespace Filtermail

namespace RateLimiter

/-- A call of the limiter: a key and the time. -/
abbrev Call : Type :=
  String × Nat

/-- The buckets without those that are due no later than now, if there are too many. -/
def prune (now : Nat) (limiter : RateLimiter) : RateLimiter :=
  if RATE_KEYS_BEFORE_PRUNE < limiter.state.length then
    { limiter with state := limiter.state.filter fun entry => now < entry.2 }
  else limiter

/-- The answer of a limiter that does not prune. -/
def charge (limiter : RateLimiter) (key : String) (now : Nat) : Bool × RateLimiter :=
  let tat := (limiter.state.lookup key).getD now
  if now + limiter.tolerance < tat then (false, limiter)
  else
    let state := (key, max tat now + limiter.interval) ::
      limiter.state.filter fun entry => entry.1 != key
    (true, { limiter with state })

theorem allow_eq (limiter : RateLimiter) (key : String) (now : Nat) :
  limiter.allow key now = (limiter.prune now).charge key now
  := by
  rw [allow, prune]
  split
  · rfl
  · rfl

/-- The answers of a limiter to the calls, one after the other. -/
def answersBy (decide : RateLimiter → String → Nat → Bool × RateLimiter) (limiter : RateLimiter) :
    List Call → List Bool
  | [] => []
  | (key, now) :: calls =>
      let r := decide limiter key now
      r.1 :: answersBy decide r.2 calls

/-- The answers of the limiter to the calls. -/
def answers (limiter : RateLimiter) (calls : List Call) : List Bool :=
  answersBy allow limiter calls

/-- The limiter after the calls. -/
def after (limiter : RateLimiter) : List Call → RateLimiter
  | [] => limiter
  | (key, now) :: calls => after (limiter.allow key now).2 calls

/-- The times of the calls for a key. -/
def timesOf (key : String) (calls : List Call) : List Nat :=
  (calls.filter fun call => call.1 = key).map Prod.snd

/-- The answers to the calls for a key. -/
def answersOf (key : String) (calls : List Call) (given : List Bool) : List Bool :=
  ((calls.zip given).filter fun call => call.1.1 = key).map Prod.snd

/-- The times of the calls for a key that were accepted. -/
def acceptedOf (key : String) (calls : List Call) (given : List Bool) : List Nat :=
  ((calls.zip given).filter fun call => call.1.1 = key ∧ call.2 = true).map fun call => call.1.2

/-! ### When a sender is due -/

/-- Every sender is due, as far as it matters now, when the limiter has it. -/
structure Agrees (state : List (String × Nat)) (due : String → Nat) (now : Nat) : Prop where
  nodup : (state.map Prod.fst).Nodup
  due : ∀ key, max ((state.lookup key).getD 0) now = max (due key) now

variable {state : List (String × Nat)} {due : String → Nat} {now : Nat}

theorem Agrees.later (h : Agrees state due now) {later : Nat} (hlater : now ≤ later) :
  Agrees state due later
  := by
  constructor
  · exact h.nodup
  · intro key
    have := h.due key
    omega

theorem lookup_filter (hnodup : (state.map Prod.fst).Nodup) (p : String × Nat → Bool)
    (key : String) :
  (state.filter p).lookup key = (state.lookup key).filter fun tat => p (key, tat)
  := by
  induction state with
  | nil => rfl
  | cons entry state ih =>
      obtain ⟨key', tat⟩ := entry
      obtain ⟨hnew, hnodup⟩ := List.nodup_cons.mp hnodup
      have ih := ih hnodup
      by_cases hkey : key = key'
      · subst hkey
        have hnone : state.lookup key = none := by
          rw [List.lookup_eq_none_iff]
          rintro ⟨other, time⟩ hmem
          rw [bne_iff_ne]
          rintro rfl
          exact hnew (List.mem_map.mpr ⟨_, hmem, rfl⟩)
        rw [List.filter_cons]
        split
        · rename_i hp
          simp [Option.filter, hp]
        · rename_i hp
          rw [ih, hnone]
          simp [Option.filter, hp]
      · have hbeq : (key == key') = false := beq_false_of_ne hkey
        rw [List.filter_cons]
        split
        · rw [List.lookup_cons, List.lookup_cons, hbeq]
          exact ih
        · rw [List.lookup_cons, hbeq]
          exact ih

theorem prune_agrees {limiter : RateLimiter} (h : Agrees limiter.state due now) :
  Agrees (limiter.prune now).state due now
  := by
  rw [prune]
  split
  · constructor
    · exact h.nodup.sublist (List.Sublist.map _ List.filter_sublist)
    · intro key
      rw [← h.due key]
      simp only
      rw [lookup_filter h.nodup]
      cases limiter.state.lookup key with
      | none => rfl
      | some tat =>
          by_cases hidle : now < tat
          · simp [Option.filter, hidle]
          · simp [Option.filter, hidle, Nat.le_of_not_lt hidle]
  · exact h

/-- When the senders are due after a call. -/
def dueAfter (interval tolerance : Nat) (due : String → Nat) (key : String) (now : Nat) :
    String → Nat :=
  if due key ≤ now + tolerance then
    fun key' => if key' = key then Gcra.next interval (due key) now else due key'
  else due

theorem dueAfter_self (interval tolerance : Nat) (due : String → Nat) (key : String) (now : Nat) :
  dueAfter interval tolerance due key now key =
    if due key ≤ now + tolerance then Gcra.next interval (due key) now else due key
  := by
  rw [dueAfter]
  split
  · simp
  · rfl

theorem dueAfter_other {key key' : String} (h : key' ≠ key) (interval tolerance : Nat)
    (due : String → Nat) (now : Nat) :
  dueAfter interval tolerance due key now key' = due key'
  := by
  rw [dueAfter]
  split
  · simp [h]
  · rfl

theorem timesOf_self (key : String) (now : Nat) (calls : List Call) :
  timesOf key ((key, now) :: calls) = now :: timesOf key calls
  := by
  simp [timesOf]

theorem timesOf_other {key key' : String} (h : key' ≠ key) (now : Nat) (calls : List Call) :
  timesOf key ((key', now) :: calls) = timesOf key calls
  := by
  simp [timesOf, h]

/-- A limiter answers as the senders are due, and has them due as they are after the call. -/
structure Answers (limiter : RateLimiter) (due : String → Nat) (key : String) (now : Nat)
    (r : Bool × RateLimiter) : Prop where
  answer : r.1 = decide (due key ≤ now + limiter.tolerance)
  agrees : Agrees r.2.state (dueAfter limiter.interval limiter.tolerance due key now) now
  interval : r.2.interval = limiter.interval
  tolerance : r.2.tolerance = limiter.tolerance

theorem charge_answers {limiter : RateLimiter} (h : Agrees limiter.state due now) (key : String) :
  Answers limiter due key now (limiter.charge key now)
  := by
  have hkey := h.due key
  have htat : max ((limiter.state.lookup key).getD now) now = max (due key) now := by
    cases hlookup : limiter.state.lookup key with
    | none =>
        rw [hlookup] at hkey
        simpa using hkey
    | some tat =>
        rw [hlookup] at hkey
        exact hkey
  rw [charge]
  simp only
  by_cases hdue : due key ≤ now + limiter.tolerance
  · rw [if_neg (by omega)]
    constructor
    · simp [hdue]
    · rw [dueAfter, if_pos hdue]
      constructor
      · rw [List.map_cons, List.nodup_cons]
        constructor
        · intro hmem
          obtain ⟨entry, hentry, heq⟩ := List.mem_map.mp hmem
          simpa [heq] using (List.mem_filter.mp hentry).2
        · exact h.nodup.sublist (List.Sublist.map _ List.filter_sublist)
      · intro key'
        by_cases hsame : key' = key
        · subst hsame
          simp [htat, Gcra.next]
        · have hbeq : (key' == key) = false := beq_false_of_ne hsame
          simp only
          rw [List.lookup_cons, if_neg hsame, ← h.due key', hbeq]
          simp only
          rw [lookup_filter h.nodup]
          cases limiter.state.lookup key' with
          | none => rfl
          | some tat => simp [Option.filter, hsame]
    · rfl
    · rfl
  · rw [if_pos (by omega)]
    constructor
    · simp [hdue]
    · rw [dueAfter, if_neg hdue]
      exact h
    · rfl
    · rfl

theorem allow_answers {limiter : RateLimiter} (h : Agrees limiter.state due now) (key : String) :
  Answers limiter due key now (limiter.allow key now)
  := by
  have hcharge := charge_answers (prune_agrees h) key
  have hinterval : (limiter.prune now).interval = limiter.interval := by
    rw [prune]
    split
    · rfl
    · rfl
  have htolerance : (limiter.prune now).tolerance = limiter.tolerance := by
    rw [prune]
    split
    · rfl
    · rfl
  rw [allow_eq]
  constructor
  · rw [← htolerance]
    exact hcharge.answer
  · rw [← htolerance, ← hinterval]
    exact hcharge.agrees
  · rw [hcharge.interval, hinterval]
  · rw [hcharge.tolerance, htolerance]

/-! ### All calls -/

/-- The calls come in the order of their times, none before the given time. -/
structure Ordered (now : Nat) (calls : List Call) : Prop where
  since : ∀ call ∈ calls, now ≤ call.2
  sorted : calls.Pairwise fun call later => call.2 ≤ later.2

theorem Ordered.tail {key : String} {time : Nat} {calls : List Call}
    (h : Ordered now ((key, time) :: calls)) :
  Ordered time calls
  := by
  obtain ⟨hfirst, hothers⟩ := List.pairwise_cons.mp h.sorted
  exact ⟨hfirst, hothers⟩

/-- What the answers are as the senders are due. -/
def dueAnswers (interval tolerance : Nat) (due : String → Nat) : List Call → List Bool
  | [] => []
  | (key, now) :: calls =>
      decide (due key ≤ now + tolerance) ::
        dueAnswers interval tolerance (dueAfter interval tolerance due key now) calls

/-- A limiter that answers every call as the senders are due answers all calls so. -/
theorem answersBy_eq {f : RateLimiter → String → Nat → Bool × RateLimiter}
    (hf : ∀ {limiter : RateLimiter} {due : String → Nat} {now : Nat},
      Agrees limiter.state due now → ∀ key, Answers limiter due key now (f limiter key now))
    {limiter : RateLimiter} {calls : List Call} (h : Agrees limiter.state due now)
    (hcalls : Ordered now calls) :
  answersBy f limiter calls = dueAnswers limiter.interval limiter.tolerance due calls
  := by
  induction calls generalizing limiter due now with
  | nil => rfl
  | cons call calls ih =>
      obtain ⟨key, time⟩ := call
      have hstep := hf (h.later (hcalls.since _ List.mem_cons_self)) key
      rw [answersBy, dueAnswers, hstep.answer, ih hstep.agrees hcalls.tail, hstep.interval, hstep.tolerance]

/-- A sender's answers depend on its own calls only. -/
theorem answersOf_dueAnswers {interval tolerance : Nat} (key : String) (calls : List Call) :
  answersOf key calls (dueAnswers interval tolerance due calls) =
    Gcra.answers interval tolerance (due key) (timesOf key calls)
  := by
  induction calls generalizing due with
  | nil => rfl
  | cons call calls ih =>
      obtain ⟨key', time⟩ := call
      have ih := @ih (dueAfter interval tolerance due key' time)
      rw [answersOf] at ih
      rw [dueAnswers, answersOf, List.zip_cons_cons, List.filter_cons]
      by_cases hkey : key' = key
      · subst hkey
        rw [if_pos (by simp), List.map_cons, ih, timesOf_self, Gcra.answers, dueAfter_self]
        split
        · rename_i hdue
          simp [hdue]
        · rename_i hdue
          simp [hdue]
      · rw [if_neg (by simpa using hkey), ih, timesOf_other hkey, dueAfter_other (Ne.symm hkey)]

theorem acceptedOf_dueAnswers {interval tolerance : Nat} (key : String) (calls : List Call) :
  acceptedOf key calls (dueAnswers interval tolerance due calls) =
    Gcra.admitted interval tolerance (due key) (timesOf key calls)
  := by
  induction calls generalizing due with
  | nil => rfl
  | cons call calls ih =>
      obtain ⟨key', time⟩ := call
      have ih := @ih (dueAfter interval tolerance due key' time)
      rw [acceptedOf] at ih
      rw [dueAnswers, acceptedOf, List.zip_cons_cons, List.filter_cons]
      by_cases hkey : key' = key
      · subst hkey
        rw [timesOf_self, Gcra.admitted]
        rw [dueAfter_self] at ih
        by_cases hdue : due key' ≤ time + tolerance
        · rw [if_pos hdue] at ih ⊢
          rw [if_pos (by simpa using hdue), List.map_cons, ih]
        · rw [if_neg hdue] at ih ⊢
          rw [if_neg (by simpa using hdue), ih]
      · rw [if_neg (by simp [hkey]), ih, timesOf_other hkey, dueAfter_other (Ne.symm hkey)]

/-- The answers to the calls of one sender. -/
theorem dueAnswers_of_key {interval tolerance : Nat} {key : String} {calls : List Call}
    (h : ∀ call ∈ calls, call.1 = key) :
  dueAnswers interval tolerance due calls =
    Gcra.answers interval tolerance (due key) (timesOf key calls)
  := by
  induction calls generalizing due with
  | nil => rfl
  | cons call calls ih =>
      obtain ⟨key', time⟩ := call
      obtain ⟨rfl, hothers⟩ := List.forall_mem_cons.mp h
      rw [dueAnswers, ih hothers, timesOf_self, Gcra.answers, dueAfter_self]
      split
      · rename_i hdue
        simp [hdue]
      · rename_i hdue
        simp [hdue]

/-- The limiter after the calls has the senders due as they are. -/
theorem after_agrees {limiter : RateLimiter} {calls : List Call} {last : Nat}
    (h : Agrees limiter.state due now) (hcalls : Ordered now calls) (hnow : now ≤ last)
    (hlast : ∀ call ∈ calls, call.2 ≤ last) :
  ∃ due' : String → Nat, Agrees (limiter.after calls).state due' last ∧
    (∀ key, due' key =
      Gcra.after limiter.interval limiter.tolerance (due key) (timesOf key calls)) ∧
    (limiter.after calls).interval = limiter.interval ∧
    (limiter.after calls).tolerance = limiter.tolerance
  := by
  induction calls generalizing limiter due now with
  | nil => exact ⟨due, h.later hnow, fun _ => rfl, rfl, rfl⟩
  | cons call calls ih =>
      obtain ⟨key, time⟩ := call
      have hstep := allow_answers (h.later (hcalls.since _ List.mem_cons_self)) key
      obtain ⟨htime, hothers⟩ := List.forall_mem_cons.mp hlast
      obtain ⟨due', hagrees, hdue, hinterval, htolerance⟩ :=
        ih hstep.agrees hcalls.tail htime hothers
      rw [hstep.interval] at hinterval
      rw [hstep.tolerance] at htolerance
      refine ⟨due', hagrees, ?_, hinterval, htolerance⟩
      intro key'
      rw [hdue, hstep.interval, hstep.tolerance]
      by_cases hkey : key = key'
      · subst hkey
        rw [timesOf_self, Gcra.after, dueAfter_self]
        split
        · rfl
        · rfl
      · rw [timesOf_other hkey, dueAfter_other (Ne.symm hkey)]

/-! ### The limit -/

section

variable {limiter : RateLimiter} {calls : List Call}

theorem acceptedOf_answers (hnew : Agrees limiter.state (fun _ => 0) 0) (hcalls : Ordered 0 calls)
    (key : String) :
  acceptedOf key calls (limiter.answers calls) =
    Gcra.admitted limiter.interval limiter.tolerance 0 (timesOf key calls)
  := by
  rw [answers, answersBy_eq allow_answers hnew hcalls, acceptedOf_dueAnswers]

/-- A sender that was idle long enough may send a burst. -/
theorem answers_burst {burst : Nat} (hnew : Agrees limiter.state (fun _ => 0) 0)
    (hcalls : Ordered 0 calls)
    (hburst : limiter.tolerance + limiter.interval = burst * limiter.interval) (key : String)
    {now : Nat} (hnow : ∀ call ∈ calls, call.2 ≤ now)
    (hidle : ∀ t ∈ acceptedOf key calls (limiter.answers calls),
      t + burst * limiter.interval ≤ now) :
  (limiter.after calls).answers (List.replicate burst (key, now)) = List.replicate burst true
  := by
  obtain ⟨due, hdue, heq, hinterval, htolerance⟩ :=
    after_agrees hnew hcalls (Nat.zero_le now) hnow
  have hlater : due key ≤ now := by
    rw [heq]
    apply Gcra.after_le (Nat.zero_le now)
    intro t ht
    rw [Nat.add_assoc, hburst]
    apply hidle
    rw [acceptedOf_answers hnew hcalls]
    exact ht
  have hordered : Ordered now (List.replicate burst (key, now)) := by
    constructor
    · intro call hcall
      rw [List.eq_of_mem_replicate hcall]
    · exact List.pairwise_replicate.mpr (Or.inr (Nat.le_refl now))
  have hkey : ∀ call ∈ List.replicate burst (key, now), call.1 = key := by
    intro call hcall
    rw [List.eq_of_mem_replicate hcall]
  have htimes : timesOf key (List.replicate burst (key, now)) = List.replicate burst now := by
    rw [timesOf, List.filter_eq_self.mpr (by simp), List.map_replicate]
  rw [answers, answersBy_eq allow_answers hdue hordered, dueAnswers_of_key hkey, htimes, hinterval,
    htolerance]
  apply Gcra.answers_replicate
  right
  omega

/-- The answers to a sender are those of a limiter that has no other sender. -/
theorem answersOf_answers (hnew : Agrees limiter.state (fun _ => 0) 0) (hcalls : Ordered 0 calls)
    (key : String) :
  answersOf key calls (limiter.answers calls) =
    limiter.answers (calls.filter fun call => call.1 = key)
  := by
  have hordered : Ordered 0 (calls.filter fun call => call.1 = key) := by
    constructor
    · intro call _
      apply Nat.zero_le
    · exact hcalls.sorted.filter _
  have hkey : ∀ call ∈ calls.filter fun call => call.1 = key, call.1 = key := by
    intro call hcall
    exact of_decide_eq_true (List.mem_filter.mp hcall).2
  have htimes : timesOf key (calls.filter fun call => call.1 = key) = timesOf key calls := by
    simp [timesOf]
  rw [answers, answers, answersBy_eq allow_answers hnew hcalls,
    answersBy_eq allow_answers hnew hordered, answersOf_dueAnswers, dueAnswers_of_key hkey, htimes]

end

/-- A new limiter has everybody due. -/
theorem new_agrees (perMinute burst : Nat) :
  Agrees (new perMinute burst).state (fun _ => 0) 0
  := by
  constructor
  · simp [new]
  · intro key
    rfl

theorem new_interval_pos {perMinute : Nat} (burst : Nat) (h : perMinute < 2 ^ 32) :
  0 < (new perMinute burst).interval
  := by
  change 0 < 60000000000 / max perMinute 1
  apply Nat.div_pos
  · omega
  · omega

/-- The tolerance and an interval are what a burst takes. -/
theorem new_tolerance (perMinute : Nat) {burst : Nat} (h : 0 < burst) :
  (new perMinute burst).tolerance + (new perMinute burst).interval =
    burst * (new perMinute burst).interval
  := by
  change (new perMinute burst).interval * (max burst 1 - 1) + (new perMinute burst).interval = _
  rw [Nat.max_eq_left h, ← Nat.mul_succ, Nat.succ_eq_add_one, Nat.sub_add_cancel h, Nat.mul_comm]

end RateLimiter

open RateLimiter

/-- In any window, at most a burst and one call for each interval are accepted of a sender; a sender
that has been idle long enough may send a burst; what other senders do, and the pruning, make no
difference. -/
theorem sender_rate_limit (perMinute burst : UInt32) (hburst : 0 < burst) (calls : List Call)
    (hcalls : calls.Pairwise fun call later => call.2 ≤ later.2) (key : String) :
  let limiter := RateLimiter.new perMinute.toNat burst.toNat
  (∀ start length, ((acceptedOf key calls (limiter.answers calls)).filter
    fun t => start ≤ t ∧ t ≤ start + length).length ≤ burst.toNat + length / limiter.interval) ∧
  (∀ now, (∀ call ∈ calls, call.2 ≤ now) →
    (∀ t ∈ acceptedOf key calls (limiter.answers calls),
      t + burst.toNat * limiter.interval ≤ now) →
    (limiter.after calls).answers (List.replicate burst.toNat (key, now)) =
      List.replicate burst.toNat true) ∧
  answersOf key calls (limiter.answers calls) =
    limiter.answers (calls.filter fun call => call.1 = key) ∧
  limiter.answers calls = limiter.answersBy charge calls
  := by
  intro limiter
  have hagrees : Agrees limiter.state (fun _ => 0) 0 := new_agrees _ _
  have hordered : Ordered 0 calls := ⟨fun _ _ => Nat.zero_le _, hcalls⟩
  have htolerance := new_tolerance perMinute.toNat (UInt32.lt_iff_toNat_lt.mp hburst)
  refine ⟨?_, ?_, ?_, ?_⟩
  · intro start length
    rw [acceptedOf_answers hagrees hordered]
    apply Gcra.length_admitted_le (new_interval_pos _ perMinute.toNat_lt) htolerance
  · intro now hnow hidle
    apply answers_burst hagrees hordered htolerance key hnow hidle
  · apply answersOf_answers hagrees hordered
  · rw [answers, answersBy_eq allow_answers hagrees hordered,
      answersBy_eq charge_answers hagrees hordered]

/-- Two senders, one of which sends three messages at once where two may come at once. -/
theorem sender_rate_limit_burst :
  let calls : List Call := [("a@x", 0), ("a@x", 0), ("b@x", 0), ("a@x", 0), ("a@x", 2000000000)]
  let limiter := RateLimiter.new 60 2
  limiter.answers calls = [true, true, true, false, true] ∧
    ((acceptedOf "a@x" calls (limiter.answers calls)).filter
      fun t => 0 ≤ t ∧ t ≤ 0 + 2000000000).length ≤ 2 + 2000000000 / limiter.interval
  := by
  constructor
  · decide +kernel
  · exact (sender_rate_limit 60 2 (by decide) _ (by decide) "a@x").1 0 2000000000

end Filtermail
