import Noombat.TextCase
import Noombat.UrlParsing

/-!
# URLs in parts

The text of an absolute URL over `http` or `https` in its parts, free of the blanks that the parser
ignores, and what the parser reads from it: the authority gives the host and the port, the path
loses its dot segments, and a fragment says nothing.  A slash at the end of a path is at most a
slash at the end of what is read.
-/

namespace Url

open Text

/-- A property of the first or the last character of a text is decided at that character. -/
instance (priority := 2000) decidableForallMemOption (p : Char → Prop) [DecidablePred p]
    (o : Option Char) : Decidable (∀ c ∈ o, p c) :=
  Option.decidableForallMem o

/-- An absolute URL over `http` or `https` in parts; the query and the fragment come with the
character before them, or are empty. -/
structure HttpUrl where
  scheme : List Char
  authority : List Char
  path : List Char
  query : List Char
  fragment : List Char
  known : String.ofList (scheme.map Char.toLower) ∈ ["http", "https"]
  alphabetic : ∀ c ∈ scheme, c.isAlpha = true
  nonempty : authority ≠ []
  within : ∀ c ∈ authority, endsAuthority c = false
  rooted : ∀ c ∈ path.head?, c = '/'
  inPath : ∀ c ∈ path, Url.inPath c = true
  asked : ∀ c ∈ query.head?, c = '?'
  noFragment : ∀ c ∈ query, c ≠ '#'
  marked : ∀ c ∈ fragment.head?, c = '#'
  significant : ∀ c ∈ authority ++ path ++ query ++ fragment, isC0ControlOrSpace c = false

namespace HttpUrl

variable (u : HttpUrl)

def tail : List Char :=
  u.path ++ u.query ++ u.fragment

def chars : List Char :=
  u.scheme ++ "://".toList ++ (u.authority ++ u.tail)

def text : String :=
  String.ofList u.chars

/-- The scheme as the parser reads it. -/
def schemeName : String :=
  String.ofList (u.scheme.map Char.toLower)

/-- What stands before the host in the authority. -/
def userinfo : List Char :=
  u.authority.rdropWhile (· != '@')

def hostPort : List Char :=
  u.authority.rtakeWhile (· != '@')

def host : List Char :=
  beforePort false u.hostPort

/-- The port with the colon before it, or nothing. -/
def port : List Char :=
  u.hostPort.drop u.host.length

theorem scheme_ne_nil :
  u.scheme ≠ []
  := by
  intro hnil
  have hknown := u.known
  rw [hnil] at hknown
  revert hknown
  decide

theorem isC0ControlOrSpace_eq_false {c : Char} (hc : c ∈ u.chars) :
  isC0ControlOrSpace c = false
  := by
  rw [chars, List.append_assoc] at hc
  obtain hc | hc := List.mem_append.mp hc
  · exact not_isC0ControlOrSpace_of_isAlpha (u.alphabetic c hc)
  · obtain hc | hc := List.mem_append.mp hc
    · have hseparator : "://".toList.all (!isC0ControlOrSpace ·) = true := by decide
      simpa using List.all_eq_true.mp hseparator c hc
    · apply u.significant c
      rw [tail] at hc
      simpa [List.append_assoc] using hc

/-- The parser ignores nothing. -/
theorem significant_chars :
  Url.significant u.chars = u.chars
  := by
  have hblank : ∀ c ∈ u.chars, ¬ isC0ControlOrSpace c = true := by
    intro c hc
    rw [u.isC0ControlOrSpace_eq_false hc]
    exact Bool.false_ne_true
  have hstart : u.chars.dropWhile isC0ControlOrSpace = u.chars := by
    cases h : u.chars with
    | nil => rfl
    | cons c cs => exact List.dropWhile_cons_of_neg (hblank c (h ▸ List.mem_cons_self))
  rw [Url.significant, hstart, List.rdropWhile_eq_self_iff.mpr fun hne =>
    hblank _ (List.getLast_mem hne), List.filter_eq_self]
  intro c hc
  rw [not_isTabOrNewline (u.isC0ControlOrSpace_eq_false hc)]
  rfl

theorem splitScheme_chars :
  splitScheme u.chars = some (u.scheme.map Char.toLower, "//".toList ++ (u.authority ++ u.tail))
  := by
  have hchars : u.chars = u.scheme ++ ':' :: ("//".toList ++ (u.authority ++ u.tail)) := by
    rw [chars, List.append_assoc]
    rfl
  have hscheme : ∀ c ∈ u.scheme, isSchemeChar c = true := by
    intro c hc
    simp [isSchemeChar, Char.isAlphanum, u.alphabetic c hc]
  have htake : u.chars.takeWhile isSchemeChar = u.scheme := by
    rw [hchars, List.takeWhile_append_of_pos hscheme]
    exact List.append_nil _
  have hdrop : u.chars.dropWhile isSchemeChar =
      ':' :: ("//".toList ++ (u.authority ++ u.tail)) := by
    rw [hchars, List.dropWhile_append_of_pos hscheme]
    rfl
  cases h : u.scheme with
  | nil => exact absurd h u.scheme_ne_nil
  | cons c scheme =>
      have hhead : u.chars.head? = some c := by
        rw [hchars, h]
        rfl
      rw [splitScheme, hhead, hdrop]
      simp only
      rw [if_pos (u.alphabetic c (by rw [h]; exact List.mem_cons_self)), htake, h]

theorem endsAuthority_head {c : Char} (hc : c ∈ u.tail.head?) :
  endsAuthority c = true
  := by
  have hcases : c = '/' ∨ c = '?' ∨ c = '#' := by
    rw [tail] at hc
    cases hpath : u.path with
    | cons d path =>
        rw [hpath] at hc
        left
        apply u.rooted
        rw [hpath]
        exact hc
    | nil =>
        rw [hpath] at hc
        cases hquery : u.query with
        | cons d query =>
            rw [hquery] at hc
            right
            left
            apply u.asked
            rw [hquery]
            exact hc
        | nil =>
            rw [hquery] at hc
            right
            right
            exact u.marked c hc
  obtain rfl | rfl | rfl := hcases <;> rfl

/-- The authority ends where the tail starts. -/
theorem takeWhile_authority :
  (u.authority ++ u.tail).takeWhile (!endsAuthority ·) = u.authority ∧
    (u.authority ++ u.tail).dropWhile (!endsAuthority ·) = u.tail
  := by
  have hwithin : ∀ c ∈ u.authority, (!endsAuthority c) = true := by
    intro c hc
    rw [u.within c hc]
    rfl
  rw [List.takeWhile_append_of_pos hwithin, List.dropWhile_append_of_pos hwithin]
  cases htail : u.tail with
  | nil => exact ⟨List.append_nil _, rfl⟩
  | cons c tail =>
      have hc : ¬ (!endsAuthority c) = true := by
        rw [u.endsAuthority_head (by rw [htail]; rfl)]
        exact Bool.false_ne_true
      constructor
      · rw [@List.takeWhile_cons_of_neg _ (!endsAuthority ·) _ _ hc, List.append_nil]
      · exact @List.dropWhile_cons_of_neg _ (!endsAuthority ·) _ _ hc

theorem splitHttp_chars :
  splitHttp u.chars = some (u.schemeName, u.authority ++ u.tail)
  := by
  have hslashes : ("//".toList ++ (u.authority ++ u.tail)).dropWhile isSlash =
      u.authority ++ u.tail := by
    rw [List.dropWhile_append_of_pos (List.all_eq_true.mp (by decide))]
    cases h : u.authority with
    | nil => exact absurd h u.nonempty
    | cons c authority =>
        apply List.dropWhile_cons_of_neg
        have hwithin := u.within c (by rw [h]; exact List.mem_cons_self)
        rw [endsAuthority, Bool.or_eq_false_iff, Bool.or_eq_false_iff] at hwithin
        rw [hwithin.1.1]
        exact Bool.false_ne_true
  rw [splitHttp, splitScheme_chars, Option.bind_some]
  simp only
  rw [if_pos u.known, hslashes]
  rfl

/-- The path as the parser reads it, and the query. -/
theorem segments_tail :
  segments u.tail = segments u.path
  := by
  have htake : u.tail.takeWhile Url.inPath = u.path := by
    rw [tail, List.append_assoc, List.takeWhile_append_of_pos u.inPath]
    cases h : u.query ++ u.fragment with
    | nil => exact List.append_nil _
    | cons c rest =>
        have hc : c = '?' ∨ c = '#' := by
          cases hquery : u.query with
          | cons d query =>
              rw [hquery] at h
              obtain ⟨rfl, _⟩ := List.cons.inj h
              exact .inl (u.asked d (by rw [hquery]; rfl))
          | nil =>
              rw [hquery, List.nil_append] at h
              exact .inr (u.marked c (by rw [h]; rfl))
        have hends : ¬ Url.inPath c = true := by
          obtain rfl | rfl := hc <;> decide
        rw [List.takeWhile_cons_of_neg hends, List.append_nil]
  have hself : u.path.takeWhile Url.inPath = u.path := List.takeWhile_eq_self_iff.mpr u.inPath
  rw [segments, htake, segments, hself]

/-- What is read of a query. -/
def readQuery (query : List Char) : Option String :=
  match query with
  | [] => none
  | _ :: asked => some (String.ofList (Percent.encode queryKeep asked))

theorem queryOf_tail :
  queryOf u.tail = readQuery u.query
  := by
  have hdrop : u.tail.dropWhile Url.inPath = (u.query ++ u.fragment).dropWhile Url.inPath := by
    rw [tail, List.append_assoc, List.dropWhile_append_of_pos u.inPath]
  rw [queryOf, hdrop]
  cases hquery : u.query with
  | nil =>
      rw [List.nil_append]
      cases hfragment : u.fragment with
      | nil => rfl
      | cons c fragment =>
          obtain rfl := u.marked c (by rw [hfragment]; rfl)
          rfl
  | cons c query =>
      obtain rfl := u.asked c (by rw [hquery]; rfl)
      have hnone : ∀ d ∈ query, (d != '#') = true := by
        intro d hd
        exact bne_iff_ne.mpr (u.noFragment d (by rw [hquery]; exact List.mem_cons_of_mem _ hd))
      have htake : (query ++ u.fragment).takeWhile (· != '#') = query := by
        rw [List.takeWhile_append_of_pos hnone]
        cases hfragment : u.fragment with
        | nil => exact List.append_nil _
        | cons d fragment =>
            obtain rfl := u.marked d (by rw [hfragment]; rfl)
            exact List.append_nil _
      change some (String.ofList (Percent.encode queryKeep
        ((query ++ u.fragment).takeWhile (· != '#')))) = _
      rw [htake]
      rfl

variable {u} {parseHost : List Char → Option String} {t : Target}

/-- What the parser reads. -/
theorem parseHttp_text (h : parseHttp parseHost u.text = some t) :
  u.host ≠ [] ∧ t.scheme = u.schemeName ∧ parseHost u.host = some t.host ∧
    portOf u.schemeName u.port = some t.port ∧
    t.path = String.ofList (pathText (resolve [] (segments u.path))) ∧
    t.query = readQuery u.query
  := by
  obtain ⟨htake, hdrop⟩ := u.takeWhile_authority
  rw [parseHttp, text, String.toList_ofList, significant_chars, locate, splitHttp_chars,
    Option.bind_some] at h
  obtain ⟨located, hlocated, rfl⟩ := Option.map_eq_some_iff.mp h
  simp only [locateIn, htake, hdrop] at hlocated
  change (if u.host = [] then none else _) = some located at hlocated
  split at hlocated
  next => cases hlocated
  next hne =>
    split at hlocated
    next host port hhost hport =>
      obtain rfl := Option.some.inj hlocated
      refine ⟨hne, rfl, hhost, hport, ?_, ?_⟩
      · change String.ofList (pathText (resolve [] (segments u.tail))) = _
        rw [segments_tail]
      · exact u.queryOf_tail
    next => cases hlocated

end HttpUrl

/-! ### Hosts and ports -/

/-- What stands before a port ends at a colon. -/
theorem beforePort_append (inside : Bool) (cs : List Char) :
  ∃ rest, cs = beforePort inside cs ++ rest ∧ ∀ c ∈ rest.head?, c = ':'
  := by
  induction cs generalizing inside with
  | nil => exact ⟨[], rfl, nofun⟩
  | cons c cs ih =>
      rw [beforePort]
      split
      next hcolon =>
        refine ⟨c :: cs, rfl, ?_⟩
        intro d hd
        obtain rfl := Option.some.inj hd
        exact hcolon.1
      next =>
        obtain ⟨rest, hrest, hhead⟩ := ih (if c = '[' then true else if c = ']' then false else inside)
        refine ⟨rest, ?_, hhead⟩
        rw [List.cons_append, ← hrest]

/-- What stands before the port of a text stands before that of any start that goes as far. -/
theorem beforePort_of_append {inside : Bool} {front rest : List Char}
    (h : beforePort inside (front ++ rest) = front) :
  beforePort inside front = front
  := by
  induction front generalizing inside with
  | nil => rfl
  | cons c front ih =>
      rw [List.cons_append, beforePort] at h
      rw [beforePort]
      split at h
      next => cases h
      next hplain =>
        rw [if_neg hplain, ih (List.cons.inj h).2]

theorem beforePort_toLower (inside : Bool) (cs : List Char) :
  beforePort inside (cs.map Char.toLower) = (beforePort inside cs).map Char.toLower
  := by
  induction cs generalizing inside with
  | nil => rfl
  | cons c cs ih =>
      have hcolon : c.toLower = ':' ↔ c = ':' := toLower_eq_iff rfl c
      have hopen : c.toLower = '[' ↔ c = '[' := toLower_eq_iff rfl c
      have hclose : c.toLower = ']' ↔ c = ']' := toLower_eq_iff rfl c
      rw [List.map_cons, beforePort, beforePort]
      simp only [hcolon, hopen, hclose]
      split
      · rfl
      · rw [ih, List.map_cons]

/-- A port that is read is nothing, or a colon and digits. -/
theorem portOf_digits {scheme : String} {c : Char} {digits : List Char} {port : Option Nat}
    (h : portOf scheme (c :: digits) = some port) :
  ∀ d ∈ digits, d.isDigit = true
  := by
  rw [portOf] at h
  split at h
  next hdigits => exact List.all_eq_true.mp hdigits
  next => cases h

namespace HttpUrl

variable (u : HttpUrl)

theorem authority_eq :
  u.authority = u.userinfo ++ u.hostPort
  := List.rdropWhile_append_rtakeWhile.symm

theorem hostPort_eq :
  u.hostPort = u.host ++ u.port
  := by
  obtain ⟨rest, hrest, _⟩ := beforePort_append false u.hostPort
  rw [port]
  conv_lhs => rw [hrest]
  conv_rhs => rw [hrest]
  rw [host, List.drop_left]

theorem colon_port :
  ∀ c ∈ u.port.head?, c = ':'
  := by
  obtain ⟨rest, hrest, hhead⟩ := beforePort_append false u.hostPort
  have hport : u.port = rest := by
    have hboth : u.host ++ u.port = u.host ++ rest := by
      rw [← hostPort_eq]
      exact hrest
    exact List.append_cancel_left hboth
  rw [hport]
  exact hhead

theorem not_at_of_mem_hostPort {c : Char} (hc : c ∈ u.hostPort) :
  (c != '@') = true
  := by
  have himp := @List.mem_rtakeWhile_imp _ (· != '@') u.authority c hc
  exact himp

/-- Before the host there is nothing, or an at sign. -/
theorem userinfo_cases :
  u.userinfo = [] ∨ ∃ front, u.userinfo = front ++ ['@']
  := by
  rcases List.eq_nil_or_concat u.userinfo with hnil | ⟨front, c, hfront⟩
  · exact .inl hnil
  · right
    use front
    rw [hfront]
    have hne : u.authority.rdropWhile (· != '@') ≠ [] := by
      change u.userinfo ≠ []
      rw [hfront]
      rw [List.concat_eq_append]
      exact List.append_ne_nil_of_right_ne_nil _ (List.cons_ne_nil _ _)
    have hlast := List.rdropWhile_last_not _ _ hne
    have hget : (u.authority.rdropWhile (· != '@')).getLast hne = c := by
      change u.userinfo.getLast hne = c
      simp only [hfront, List.concat_eq_append, List.getLast_append_singleton]
    rw [hget] at hlast
    simpa using hlast

end HttpUrl

/-! ### Slashes at the end -/

/-- A slash after a list that does not end in one. -/
def AddsSlash (l l' : List Char) : Prop :=
  l' = l ++ ['/'] ∧ l.getLast? ≠ some '/'

/-- A list ends in one slash and no more. -/
def EndsInOneSlash (l : List Char) : Prop :=
  ∃ front, AddsSlash front l

/-- A slash at the end of a path that has one already at its start is a slash at the end of what is
read, or comes to nothing. -/
theorem resolve_slash {stack segments : List (List Char)} (hne : segments ≠ []) :
  resolve stack (segments ++ [[]]) = resolve stack segments ∨
    resolve stack (segments ++ [[]]) = resolve stack segments ++ [[]]
  := by
  induction segments generalizing stack with
  | nil => exact absurd rfl hne
  | cons segment segments ih =>
      cases segments with
      | nil =>
          have hlast : resolve stack [segment, []] = ([] :: enter stack segment).reverse := rfl
          rw [List.singleton_append, hlast, resolve]
          split
          · exact .inl rfl
          · right
            rw [List.reverse_cons]
      | cons segment' segments =>
          rw [List.cons_append, resolve, resolve]
          · exact ih (List.cons_ne_nil _ _)
          · exact List.cons_ne_nil _ _
          · exact List.cons_ne_nil _ _

theorem intercalate_concat_nil {segments : List (List Char)} (hne : segments ≠ []) :
  ['/'].intercalate (segments ++ [[]]) = ['/'].intercalate segments ++ ['/']
  := by
  induction segments with
  | nil => exact absurd rfl hne
  | cons segment segments ih =>
      cases segments with
      | nil => simp [List.intercalate]
      | cons segment' segments =>
          have hcons (l : List (List Char)) (hl : l ≠ []) :
              ['/'].intercalate (segment :: l) = segment ++ '/' :: ['/'].intercalate l := by
            obtain ⟨a, l, rfl⟩ := List.exists_cons_of_ne_nil hl
            simp [List.intercalate]
          rw [List.cons_append, hcons _ (by simp), ih (List.cons_ne_nil _ _),
            hcons _ (List.cons_ne_nil _ _)]
          simp

/-- What is read of a path that has one slash more has at most one slash more. -/
theorem path_slash {path : List Char} (hrooted : ∀ c ∈ path.head?, c = '/')
    (hpath : ∀ c ∈ path, inPath c = true) :
  pathText (resolve [] (segments (path ++ ['/']))) = pathText (resolve [] (segments path)) ∨
    pathText (resolve [] (segments (path ++ ['/']))) =
      pathText (resolve [] (segments path)) ++ ['/']
  := by
  cases path with
  | nil => exact .inl rfl
  | cons c path =>
      obtain rfl := hrooted c rfl
      have hslash : isSlash '/' = true := rfl
      have htake : ('/' :: path ++ ['/']).takeWhile inPath = '/' :: path ++ ['/'] := by
        apply List.takeWhile_eq_self_iff.mpr
        intro c hc
        obtain hc | hc := List.mem_append.mp hc
        · exact hpath c hc
        · obtain rfl := List.mem_singleton.mp hc
          rfl
      have hself : ('/' :: path).takeWhile inPath = '/' :: path :=
        List.takeWhile_eq_self_iff.mpr hpath
      have hsegments : segments ('/' :: path ++ ['/']) = segments ('/' :: path) ++ [[]] := by
        rw [segments, segments, htake, hself]
        change (splitList isSlash (path ++ '/' :: [])).map _ =
          (splitList isSlash path).map _ ++ [[]]
        rw [splitList_append_cons hslash, List.map_append]
        rfl
      have hne : segments ('/' :: path) ≠ [] := by
        intro hnil
        exact splitList_ne_nil _ (List.map_eq_nil_iff.mp hnil)
      rw [hsegments]
      obtain h | h := @resolve_slash [] _ hne
      · exact .inl (congrArg pathText h)
      · right
        rw [h, pathText, intercalate_concat_nil (resolve_ne_nil hne)]
        rfl

end Url
