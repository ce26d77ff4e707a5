import Mathlib.Data.Finset.Card
import Noombat.Numbering
import Noombat.Organizations.Calls
import Noombat.TextSplits

/-!
# Usernames of accounts made by OAuth

A user who signs up through Mastodon or ORCID has no username yet.  One is derived from what the
provider says of the user, and made different from those that are taken by a number at its end.
Whatever the provider says, what is derived is a username and short enough for the number, so that
the result is a username, too; and the candidates are different from each other, so that one of them
is free unless a thousand are taken.
-/

namespace Identity.Oauth

open Federation (NoombatError)
open Organizations (validateUsername)
open Text (split)

/-! ### The derivations -/

def isLowercase (c : Char) : Bool :=
  decide ('a' ≤ c ∧ c ≤ 'z')

def isDigit (c : Char) : Bool :=
  decide ('0' ≤ c ∧ c ≤ '9')

def isUsernameChar (c : Char) : Bool :=
  isLowercase c || isDigit c || c == '_'

/-- Whether the first of some characters is a lower-case letter. -/
def startsLowercase (cs : List Char) : Bool :=
  cs.head?.any isLowercase

section Derivations

variable (toLowercase : String → String)

/-- The username for a Mastodon account. -/
def deriveUsername (acct instanceDomain : String) : String :=
  let base := (toLowercase ((split '@' acct).headD acct)).toList.filter isUsernameChar
  let base := if base.isEmpty || !startsLowercase base then ['m', '_'] ++ base else base
  let truncated := base.take 24
  let domainShort :=
    (((split '.' instanceDomain).headD "fedi").toList.filter isLowercase).take 4
  String.ofList (truncated ++ ['_'] ++ domainShort)

/-- The username for an ORCID iD, from the name that goes with it if it has one of use. -/
def deriveUsernameFromOrcid (orcid : String) (name : Option String) : String :=
  let sanitised := name.map fun name =>
    let replaced := (toLowercase name).toList.map fun c =>
      if isLowercase c || isDigit c then c else '_'
    ['_'].intercalate ((Text.splitList (· == '_') replaced).filter (!·.isEmpty))
  match sanitised.filter fun s => !s.isEmpty && startsLowercase s with
  | some sanitised => String.ofList (sanitised.take 28)
  | none =>
      let suffix := ((orcid.toList.reverse.filter isDigit).take 4).reverse
      String.ofList ("orcid_".toList ++ suffix)

end Derivations

/-! ### Making a username different -/

section Unique

variable (isTaken : String → Except NoombatError Bool)

/-- The first name that is free, of a base with the numbers given. -/
def firstFree (truncated : String) : List Nat → Except NoombatError String
  | [] => .error (.internal "failed to generate unique username")
  | i :: is => do
      let candidate := truncated ++ toString i
      if !(← isTaken candidate) then return candidate
      firstFree truncated is

def truncate (base : String) : String :=
  String.ofList (base.toList.take 27)

/-- A username that nobody has, with a number at its end if that is needed. -/
def ensureUniqueUsername (base : String) : Except NoombatError String := do
  let truncated := truncate base
  if !(← isTaken truncated) then return truncated
  firstFree isTaken truncated (List.range' 1 999)

end Unique

/-- The names that are tried for a base. -/
def candidates (base : String) : List String :=
  truncate base :: (List.range' 1 999).map fun i => truncate base ++ toString i

/-! ### What a username is -/

/-- A username of at most `n` characters. -/
structure IsUsername (n : Nat) (name : String) : Prop where
  start : startsLowercase name.toList = true
  chars : ∀ c ∈ name.toList, isUsernameChar c = true
  length : name.toList.length ≤ n

theorem utf8Size_of_isUsernameChar {c : Char} (h : isUsernameChar c = true) :
  c.utf8Size = 1
  := by
  apply Char.utf8Size_eq_one_iff.mpr
  simp only [isUsernameChar, isLowercase, isDigit, Bool.or_eq_true, decide_eq_true_eq,
    beq_iff_eq, Char.le_def] at h
  obtain (h | h) | rfl := h
  · exact UInt32.le_trans h.2 (by decide)
  · exact UInt32.le_trans h.2 (by decide)
  · decide

theorem utf8ByteSize_of_chars {name : String}
    (h : ∀ c ∈ name.toList, isUsernameChar c = true) :
  name.utf8ByteSize = name.toList.length
  := Text.utf8ByteSize_eq_length fun c hc => utf8Size_of_isUsernameChar (h c hc)

/-- Every username of at most thirty characters is accepted. -/
theorem IsUsername.validate {name : String} (h : IsUsername 30 name) :
  validateUsername name = .ok ()
  := by
  obtain ⟨hstart, hchars, hlength⟩ := h
  have hbytes := utf8ByteSize_of_chars hchars
  have hne : name.isEmpty = false := by
    apply Bool.eq_false_iff.mpr
    intro hempty
    rw [String.isEmpty_iff] at hempty
    rw [hempty] at hstart
    cases hstart
  have hhead : (name.toList.head?.any fun c => decide ('a' ≤ c ∧ c ≤ 'z')) = true := hstart
  have htail : (name.toList.tail.all fun c =>
      decide ('a' ≤ c ∧ c ≤ 'z') || decide ('0' ≤ c ∧ c ≤ '9') || c == '_') = true := by
    apply List.all_eq_true.mpr
    intro c hc
    exact hchars c (List.mem_of_mem_tail hc)
  rw [validateUsername, if_neg, hhead, htail]
  · rfl
  · rw [hne, hbytes]
    simp only [Bool.false_eq_true, false_or]
    omega

theorem startsLowercase_append {cs : List Char} (h : startsLowercase cs = true)
    (cs' : List Char) :
  startsLowercase (cs ++ cs') = true
  := by
  cases cs with
  | nil => cases h
  | cons c cs => exact h

theorem startsLowercase_take {cs : List Char} (h : startsLowercase cs = true) (n : Nat) :
  startsLowercase (cs.take (n + 1)) = true
  := by
  cases cs with
  | nil => cases h
  | cons c cs => exact h

theorem isUsernameChar_of_lowercase {c : Char} (h : isLowercase c = true) :
  isUsernameChar c = true
  := by
  simp [isUsernameChar, h]

theorem isUsernameChar_of_digit {c : Char} (h : isDigit c = true) :
  isUsernameChar c = true
  := by
  simp [isUsernameChar, h]

/-! ### What is derived -/

theorem deriveUsername_isUsername (toLowercase : String → String)
    (acct instanceDomain : String) :
  IsUsername 29 (deriveUsername toLowercase acct instanceDomain)
  := by
  rw [deriveUsername]
  generalize hbase : (toLowercase ((split '@' acct).headD acct)).toList.filter isUsernameChar = base
  have hchars : ∀ c ∈ base, isUsernameChar c = true := by
    intro c hc
    rw [← hbase] at hc
    exact (List.mem_filter.mp hc).2
  -- the base as it is, or after the letter that it lacks
  have hprefixed : ∃ base', (if base.isEmpty || !startsLowercase base then ['m', '_'] ++ base
      else base) = base' ∧ startsLowercase base' = true ∧
      ∀ c ∈ base', isUsernameChar c = true := by
    split
    · use ['m', '_'] ++ base
      refine ⟨rfl, rfl, ?_⟩
      intro c hc
      simp only [List.cons_append, List.nil_append, List.mem_cons] at hc
      obtain rfl | rfl | hc := hc
      · decide
      · decide
      · exact hchars c hc
    · rename_i hstart
      use base
      refine ⟨rfl, ?_, hchars⟩
      cases hlower : startsLowercase base with
      | true => rfl
      | false => simp [hlower] at hstart
  obtain ⟨base', heq, hstart, hchars'⟩ := hprefixed
  rw [heq]
  constructor
  · rw [String.toList_ofList, List.append_assoc]
    apply startsLowercase_append (startsLowercase_take hstart 23)
  · intro c hc
    rw [String.toList_ofList] at hc
    simp only [List.mem_append, List.mem_singleton] at hc
    obtain (hc | rfl) | hc := hc
    · exact hchars' c (List.mem_of_mem_take hc)
    · decide
    · exact isUsernameChar_of_lowercase (List.mem_filter.mp (List.mem_of_mem_take hc)).2
  · rw [String.toList_ofList]
    simp only [List.length_append, List.length_take, List.length_singleton]
    omega

theorem mem_intercalate {sep : List Char} {parts : List (List Char)} {c : Char}
    (hc : c ∈ sep.intercalate parts) :
  c ∈ sep ∨ ∃ part ∈ parts, c ∈ part
  := by
  induction parts with
  | nil => cases hc
  | cons part parts ih =>
      cases parts with
      | nil =>
          rw [List.intercalate_singleton] at hc
          exact .inr ⟨part, List.mem_cons_self, hc⟩
      | cons part' parts =>
          rw [List.intercalate_cons_cons, List.append_assoc, List.mem_append, List.mem_append] at hc
          obtain hc | hc | hc := hc
          · exact .inr ⟨part, List.mem_cons_self, hc⟩
          · exact .inl hc
          · obtain hsep | ⟨found, hfound, hc⟩ := ih hc
            · exact .inl hsep
            · exact .inr ⟨found, List.mem_cons_of_mem part hfound, hc⟩

theorem deriveUsernameFromOrcid_isUsername (toLowercase : String → String) (orcid : String)
    (name : Option String) :
  IsUsername 28 (deriveUsernameFromOrcid toLowercase orcid name)
  := by
  rw [deriveUsernameFromOrcid]
  simp only
  split
  · rename_i sanitised hsanitised
    obtain ⟨hname, hstart⟩ := Option.filter_eq_some_iff.mp hsanitised
    obtain ⟨name, -, rfl⟩ := Option.map_eq_some_iff.mp hname
    rw [Bool.and_eq_true] at hstart
    constructor
    · rw [String.toList_ofList]
      apply startsLowercase_take hstart.2 27
    · intro c hc
      rw [String.toList_ofList] at hc
      obtain hc | ⟨part, hpart, hc⟩ := mem_intercalate (List.mem_of_mem_take hc)
      · rw [List.mem_singleton.mp hc]
        decide
      · obtain ⟨d, -, rfl⟩ := List.mem_map.mp (Text.mem_of_mem_splitList (List.mem_filter.mp hpart).1 hc)
        split
        · rename_i hd
          rw [isUsernameChar, hd, Bool.true_or]
        · decide
    · rw [String.toList_ofList, List.length_take]
      omega
  · constructor
    · rw [String.toList_ofList]
      apply startsLowercase_append
      decide
    · intro c hc
      rw [String.toList_ofList, List.mem_append] at hc
      obtain hc | hc := hc
      · revert c
        apply List.all_eq_true.mp
        decide +kernel
      · have hc := List.mem_of_mem_take (List.mem_reverse.mp hc)
        exact isUsernameChar_of_digit (List.mem_filter.mp hc).2
    · rw [String.toList_ofList, List.length_append, List.length_reverse, List.length_take]
      have horcid : "orcid_".toList.length = 6 := by decide +kernel
      omega

/-! ### The candidates -/

section Candidates

variable {base : String}

theorem IsUsername.truncate {n : Nat} (h : IsUsername n base) :
  IsUsername 27 (truncate base)
  := by
  constructor
  · rw [Oauth.truncate, String.toList_ofList]
    apply startsLowercase_take h.start 26
  · intro c hc
    rw [Oauth.truncate, String.toList_ofList] at hc
    exact h.chars c (List.mem_of_mem_take hc)
  · rw [Oauth.truncate, String.toList_ofList, List.length_take]
    omega

/-- A number below a thousand can follow a name of twenty-seven characters. -/
theorem IsUsername.numbered (h : IsUsername 27 base) {i : Nat} (hi : i < 1000) :
  IsUsername 30 (base ++ toString i)
  := by
  have hdigits : (toString i).toList = Nat.toDigits 10 i := by
    rw [Nat.toString_eq_repr, Nat.toList_repr]
  constructor
  · rw [String.toList_append]
    apply startsLowercase_append h.start
  · intro c hc
    rw [String.toList_append, List.mem_append, hdigits] at hc
    obtain hc | hc := hc
    · exact h.chars c hc
    · apply isUsernameChar_of_digit
      have hdigit := Nat.isDigit_of_mem_toDigits (by decide) (by decide) hc
      simpa [isDigit, Char.isDigit, Char.le_def] using hdigit
  · rw [String.toList_append, List.length_append, hdigits]
    have hlength := (Nat.length_toDigits_le_iff (by decide) (by decide)).mpr
      (show i < 10 ^ 3 by omega)
    have hbase := h.length
    omega

theorem isUsername_of_mem_candidates {n : Nat} (h : IsUsername n base) :
  ∀ name ∈ candidates base, IsUsername 30 name
  := by
  intro name hname
  obtain rfl | hname := List.mem_cons.mp hname
  · obtain ⟨hstart, hchars, hlength⟩ := h.truncate
    exact ⟨hstart, hchars, by omega⟩
  · obtain ⟨i, hi, rfl⟩ := List.mem_map.mp hname
    rw [List.mem_range'_1] at hi
    exact h.truncate.numbered (by omega)

/-- No candidate is tried twice. -/
theorem nodup_candidates (base : String) :
  (candidates base).Nodup
  := by
  have hcut {i : Nat} {more : String} (h : truncate base ++ toString i = truncate base ++ more) :
      toString i = more := by
    have hlist := congrArg String.toList h
    rw [String.toList_append, String.toList_append] at hlist
    exact String.toList_inj.mp (List.append_cancel_left hlist)
  apply List.nodup_cons.mpr
  constructor
  · intro hmem
    obtain ⟨i, -, hi⟩ := List.mem_map.mp hmem
    have hempty := @hcut i "" (by rw [hi, String.append_empty])
    rw [Nat.toString_eq_repr] at hempty
    have hnil := congrArg String.toList hempty
    rw [Nat.toList_repr] at hnil
    exact Nat.toDigits_ne_nil hnil
  · apply List.Nodup.map
    · intro i j hij
      exact Numbering.toString_injective (hcut hij)
    · exact List.nodup_range'

end Candidates

/-! ### The choice among them -/

section Choice

variable {isTaken : String → Except NoombatError Bool}

/-- A name that is returned is free; an error is one of the lookups, or says that every name is
taken. -/
inductive Chosen (isTaken : String → Except NoombatError Bool) (names : List String) :
    Except NoombatError String → Prop
  | free {name : String} : name ∈ names → isTaken name = .ok false → Chosen isTaken names (.ok name)
  | failed {name : String} {e : NoombatError} :
      name ∈ names → isTaken name = .error e → Chosen isTaken names (.error e)
  | exhausted : (∀ name ∈ names, isTaken name = .ok true) →
      Chosen isTaken names (.error (.internal "failed to generate unique username"))

theorem Chosen.cons {name : String} {names : List String} {result : Except NoombatError String}
    (h : Chosen isTaken names result) (htaken : isTaken name = .ok true) :
  Chosen isTaken (name :: names) result
  := by
  cases h with
  | free hmem hfree => exact .free (List.mem_cons_of_mem name hmem) hfree
  | failed hmem herror => exact .failed (List.mem_cons_of_mem name hmem) herror
  | exhausted hall =>
      apply Chosen.exhausted
      intro name' hname'
      obtain rfl | hname' := List.mem_cons.mp hname'
      · exact htaken
      · exact hall name' hname'

theorem firstFree_chosen (truncated : String) (is : List Nat) :
  Chosen isTaken (is.map fun i => truncated ++ toString i) (firstFree isTaken truncated is)
  := by
  induction is with
  | nil => exact .exhausted (by simp)
  | cons i is ih =>
      rw [firstFree, List.map_cons]
      cases htaken : isTaken (truncated ++ toString i) with
      | error e => exact .failed List.mem_cons_self htaken
      | ok taken =>
          cases taken with
          | false => exact .free List.mem_cons_self htaken
          | true => exact ih.cons htaken

theorem firstFree_or_chosen (truncated : String) (is : List Nat) :
  Chosen isTaken (truncated :: is.map fun i => truncated ++ toString i) (do
    if !(← isTaken truncated) then return truncated
    firstFree isTaken truncated is)
  := by
  cases htaken : isTaken truncated with
  | error e => exact .failed List.mem_cons_self htaken
  | ok taken =>
      cases taken with
      | false => exact .free List.mem_cons_self htaken
      | true => exact (firstFree_chosen _ _).cons htaken

theorem ensureUniqueUsername_chosen (base : String) :
  Chosen isTaken (candidates base) (ensureUniqueUsername isTaken base)
  := by
  apply firstFree_or_chosen

end Choice

/-! ### The usernames of new accounts -/

/-- From a base a username is made that is accepted and free, whatever names are taken; or an error
is returned, of a lookup that failed or because all of a thousand different candidates are taken.
So of fewer names none can take up all candidates. -/
structure MintsUsernames (base : String) : Prop where
  valid : ∀ isTaken name, ensureUniqueUsername isTaken base = .ok name →
    validateUsername name = .ok () ∧ isTaken name = .ok false
  error : ∀ isTaken e, ensureUniqueUsername isTaken base = .error e →
    (∃ name, isTaken name = .error e) ∨
      e = .internal "failed to generate unique username" ∧
        ∀ name ∈ candidates base, isTaken name = .ok true
  different : (candidates base).Nodup ∧ (candidates base).length = 1000
  supply : ∀ taken : Finset String, taken.card < 1000 → ∃ name,
    ensureUniqueUsername (fun name => .ok (decide (name ∈ taken))) base = .ok name ∧ name ∉ taken

theorem length_candidates (base : String) :
  (candidates base).length = 1000
  := by
  rw [candidates, List.length_cons, List.length_map, List.length_range']

theorem IsUsername.mints {n : Nat} {base : String} (h : IsUsername n base) :
  MintsUsernames base
  := by
  constructor
  · intro isTaken name hname
    have hchosen := @ensureUniqueUsername_chosen isTaken base
    rw [hname] at hchosen
    cases hchosen with
    | free hmem hfree => exact ⟨(isUsername_of_mem_candidates h name hmem).validate, hfree⟩
  · intro isTaken e he
    have hchosen := @ensureUniqueUsername_chosen isTaken base
    rw [he] at hchosen
    cases hchosen with
    | failed hmem herror => exact .inl ⟨_, herror⟩
    | exhausted hall => exact .inr ⟨rfl, hall⟩
  · exact ⟨nodup_candidates base, length_candidates base⟩
  · intro taken hcard
    have hchosen := @ensureUniqueUsername_chosen (fun name => .ok (decide (name ∈ taken))) base
    generalize ensureUniqueUsername (fun name => .ok (decide (name ∈ taken))) base = result
      at hchosen
    cases hchosen with
    | @free name hmem hfree =>
        use name
        have hnot : decide (name ∈ taken) = false := Except.ok.inj hfree
        exact ⟨rfl, of_decide_eq_false hnot⟩
    | failed hmem herror => cases herror
    | exhausted hall =>
        -- the candidates are too many to be taken
        have hsubset : (candidates base).toFinset ⊆ taken := by
          intro name hname
          have htaken := Except.ok.inj (hall name (List.mem_toFinset.mp hname))
          exact of_decide_eq_true htaken
        have hle := Finset.card_le_card hsubset
        rw [List.toFinset_card_of_nodup (nodup_candidates base), length_candidates] at hle
        omega

/-- The usernames of accounts made through Mastodon and through ORCID are accepted and free, whoever
signs up. -/
theorem usernames_valid_and_free (toLowercase : String → String) :
  (∀ acct instanceDomain, MintsUsernames (deriveUsername toLowercase acct instanceDomain)) ∧
    ∀ orcid name, MintsUsernames (deriveUsernameFromOrcid toLowercase orcid name)
  := by
  constructor
  · intro acct instanceDomain
    exact (deriveUsername_isUsername toLowercase acct instanceDomain).mints
  · intro orcid name
    exact (deriveUsernameFromOrcid_isUsername toLowercase orcid name).mints

example :
  deriveUsernameFromOrcid Text.toAsciiLowercase "0000-0002-1825-0097" (some "Jane Doe") = "jane_doe"
  := by decide +kernel

end Identity.Oauth
