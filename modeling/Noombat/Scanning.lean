import Mathlib.Data.List.Infix
import Noombat.Text

/-!
# Leftmost matches

A matcher finds a match at the start of a list, if there is one.  To scan a list is to find the
leftmost match and to go on after it; the list is then cut into the matches, what lies in front
of each, and what is left.
-/

namespace Scanning

variable {α γ : Type}

/-- A match at the start of a list, with what is captured of it. -/
structure Matcher (α γ : Type) where
  atStart : List α → Option (List α × γ)
  matched : ∀ {cs whole group}, atStart cs = some (whole, group) → whole <+: cs
  nonempty : ∀ {cs whole group}, atStart cs = some (whole, group) → whole ≠ []

/-- A match, and what lies between the match before and it. -/
structure Piece (α γ : Type) where
  gap : List α
  whole : List α
  group : γ

variable (m : Matcher α γ)

/-- The leftmost match, and what follows it. -/
def firstMatch : List α → Option (Piece α γ × List α)
  | [] => none
  | c :: cs =>
      match m.atStart (c :: cs) with
      | some (whole, group) => some (⟨[], whole, group⟩, (c :: cs).drop whole.length)
      | none => (firstMatch cs).map fun (p, rest) => ({ p with gap := c :: p.gap }, rest)

/-- The matches from the left, a number at most, and what is left. -/
def scan : Nat → List α → List (Piece α γ) × List α
  | 0, cs => ([], cs)
  | n + 1, cs =>
      match firstMatch m cs with
      | none => ([], cs)
      | some (p, rest) => (p :: (scan n rest).1, (scan n rest).2)

/-- All matches, and what is left. -/
def scanAll (cs : List α) : List (Piece α γ) × List α :=
  scan m cs.length cs

variable {m}

/-- The leftmost match is a match, and none starts in front of it. -/
theorem firstMatch_eq_some {cs rest : List α} {p : Piece α γ}
    (h : firstMatch m cs = some (p, rest)) :
  cs = p.gap ++ (p.whole ++ rest) ∧
    m.atStart (p.whole ++ rest) = some (p.whole, p.group) ∧
    ∀ front back, p.gap = front ++ back → back ≠ [] →
      m.atStart (back ++ (p.whole ++ rest)) = none
  := by
  induction cs generalizing p rest with
  | nil => cases h
  | cons c cs ih =>
      rw [firstMatch] at h
      cases hstart : m.atStart (c :: cs) with
      | some found =>
          obtain ⟨whole, group⟩ := found
          rw [hstart] at h
          obtain ⟨rfl, rfl⟩ := Prod.mk.inj (Option.some.inj h)
          have hsplit : whole ++ (c :: cs).drop whole.length = c :: cs := by
            obtain ⟨after, hafter⟩ := m.matched hstart
            rw [← hafter, List.drop_left]
          refine ⟨hsplit.symm, ?_, ?_⟩
          · simp only [hsplit]
            exact hstart
          · intro front back hgap hback
            exact absurd (List.append_eq_nil_iff.mp hgap.symm).2 hback
      | none =>
          rw [hstart] at h
          obtain ⟨⟨p', rest'⟩, hfirst, hp⟩ := Option.map_eq_some_iff.mp h
          obtain ⟨rfl, rfl⟩ := Prod.mk.inj hp
          obtain ⟨hcut, hmatch, hnone⟩ := ih hfirst
          refine ⟨?_, hmatch, ?_⟩
          · rw [hcut]
            rfl
          · intro front back hgap hback
            cases front with
            | nil =>
                have hall : back ++ (p'.whole ++ rest') = c :: cs := by
                  rw [← List.nil_append back, ← hgap, hcut]
                  rfl
                simp only [hall]
                exact hstart
            | cons d front =>
                injection hgap with _ hgap
                exact hnone front back hgap hback

theorem length_rest_lt {cs rest : List α} {p : Piece α γ}
    (h : firstMatch m cs = some (p, rest)) :
  rest.length < cs.length
  := by
  obtain ⟨hcut, hmatch, _⟩ := firstMatch_eq_some h
  have hpos := List.length_pos_iff.mpr (m.nonempty hmatch)
  rw [hcut, List.length_append, List.length_append]
  omega

/-- How a list is cut by its matches. -/
inductive Scanned (m : Matcher α γ) : List α → List (Piece α γ) → List α → Prop where
  | last {cs : List α} (h : firstMatch m cs = none) : Scanned m cs [] cs
  | next {cs rest last : List α} {p : Piece α γ} {pieces : List (Piece α γ)}
      (h : firstMatch m cs = some (p, rest)) (hrest : Scanned m rest pieces last) :
      Scanned m cs (p :: pieces) last

theorem scanned_scan {n : Nat} {cs : List α} (h : cs.length ≤ n) :
  Scanned m cs (scan m n cs).1 (scan m n cs).2
  := by
  induction n generalizing cs with
  | zero =>
      obtain rfl := List.length_eq_zero_iff.mp (Nat.le_zero.mp h)
      exact .last rfl
  | succ n ih =>
      rw [scan]
      cases hfirst : firstMatch m cs with
      | none => exact .last hfirst
      | some found =>
          obtain ⟨p, rest⟩ := found
          apply Scanned.next hfirst
          apply ih
          have hlt := length_rest_lt hfirst
          omega

theorem scanned_scanAll (m : Matcher α γ) (cs : List α) :
  Scanned m cs (scanAll m cs).1 (scanAll m cs).2
  := scanned_scan le_rfl

/-! ### The first occurrence of a list -/

variable [BEq α] [LawfulBEq α]

/-- A list occurs first where it occurs, and nowhere in front. -/
theorem cutAt_eq_some_iff {sep s before after : List α} (hsep : sep ≠ []) :
  Text.cutAt sep s = some (before, after) ↔
    s = before ++ (sep ++ after) ∧
      ∀ front back, before = front ++ back → back ≠ [] → ¬ sep <+: back ++ (sep ++ after)
  := by
  induction s generalizing before with
  | nil =>
      have hempty : sep.isEmpty = false := by
        rw [← Bool.not_eq_true, List.isEmpty_iff]
        exact hsep
      rw [Text.cutAt, hempty]
      constructor
      · nofun
      · rintro ⟨hnil, _⟩
        have happend := (List.append_eq_nil_iff.mp hnil.symm).2
        exact absurd (List.append_eq_nil_iff.mp happend).1 hsep
  | cons a s ih =>
      rw [Text.cutAt]
      by_cases hstart : sep.isPrefixOf (a :: s) = true
      · rw [if_pos hstart]
        obtain ⟨rest, hrest⟩ := List.isPrefixOf_iff_prefix.mp hstart
        constructor
        · intro h
          obtain ⟨rfl, rfl⟩ := Prod.mk.inj (Option.some.inj h)
          constructor
          · rw [← hrest, List.drop_left]
            rfl
          · intro front back hnil hback
            exact absurd (List.append_eq_nil_iff.mp hnil.symm).2 hback
        · rintro ⟨hs, hfirst⟩
          cases before with
          | nil =>
              rw [hs, List.nil_append, List.drop_left]
          | cons b before =>
              refine absurd ?_ (hfirst [] (b :: before) rfl (List.cons_ne_nil b before))
              rw [← hs]
              exact List.isPrefixOf_iff_prefix.mp hstart
      · rw [if_neg hstart]
        constructor
        · intro h
          obtain ⟨⟨before', after'⟩, hcut, hp⟩ := Option.map_eq_some_iff.mp h
          obtain ⟨rfl, rfl⟩ := Prod.mk.inj hp
          obtain ⟨hs, hfirst⟩ := ih.mp hcut
          constructor
          · rw [hs]
            rfl
          · intro front back hbefore hback
            cases front with
            | nil =>
                rw [List.nil_append] at hbefore
                rw [← hbefore, List.cons_append, ← hs]
                intro hpre
                exact hstart (List.isPrefixOf_iff_prefix.mpr hpre)
            | cons d front =>
                injection hbefore with _ hbefore
                exact hfirst front back hbefore hback
        · rintro ⟨hs, hfirst⟩
          cases before with
          | nil =>
              refine absurd (List.isPrefixOf_iff_prefix.mpr ?_) hstart
              rw [hs]
              apply List.prefix_append
          | cons b before =>
              injection hs with hhead hs
              subst hhead
              rw [ih.mpr ⟨hs, ?_⟩]
              · rfl
              · intro front back hbefore hback
                exact hfirst (a :: front) back (by rw [hbefore]; rfl) hback

/-- What occurs is found. -/
theorem cutAt_isSome {sep s : List α} (h : sep <:+: s) :
  ∃ before after, Text.cutAt sep s = some (before, after)
  := by
  induction s with
  | nil =>
      obtain rfl := List.infix_nil.mp h
      exact ⟨[], [], rfl⟩
  | cons a s ih =>
      rw [Text.cutAt]
      split
      · exact ⟨_, _, rfl⟩
      · rename_i hstart
        rcases List.infix_cons_iff.mp h with hpre | hinfix
        · exact absurd (List.isPrefixOf_iff_prefix.mpr hpre) hstart
        · obtain ⟨before, after, hcut⟩ := ih hinfix
          rw [hcut]
          exact ⟨_, _, rfl⟩

/-- A list is cut at the first of an element. -/
theorem cutAt_singleton_iff {a : α} {s before after : List α} :
  Text.cutAt [a] s = some (before, after) ↔ s = before ++ a :: after ∧ a ∉ before
  := by
  rw [cutAt_eq_some_iff (List.cons_ne_nil a [])]
  constructor
  · rintro ⟨hs, hfirst⟩
    refine ⟨hs, ?_⟩
    intro hmem
    obtain ⟨front, back, hbefore⟩ := List.append_of_mem hmem
    apply hfirst front (a :: back) hbefore (List.cons_ne_nil a back)
    exact ⟨back ++ ([a] ++ after), rfl⟩
  · rintro ⟨hs, hmem⟩
    refine ⟨hs, ?_⟩
    rintro front back hbefore hback ⟨tail, htail⟩
    obtain ⟨b, back, rfl⟩ := List.exists_cons_of_ne_nil hback
    injection htail with hhead _
    apply hmem
    rw [hbefore, hhead]
    apply List.mem_append_right
    apply List.mem_cons_self

theorem cutAt_eq_none {sep s : List α} (h : Text.cutAt sep s = none) :
  ¬ sep <:+: s
  := by
  intro hoccurs
  obtain ⟨before, after, hcut⟩ := cutAt_isSome hoccurs
  rw [h] at hcut
  cases hcut

end Scanning
