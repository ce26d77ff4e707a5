import Noombat.PercentEncoding
import Noombat.TextSplits
import Noombat.UrlText

/-!
# The parser of URLs

The parser of URLs on absolute URLs whose scheme is `http` or `https`: the authority is what
stands before the first slash, question mark or number sign, the path is percent-encoded and its
dot segments are resolved.  How a host is decoded is a parameter.

A path that is put after a text is the end of the path of the URL, if the text has no query and no
fragment.  It is the whole path just if the text has no path of its own, or one that comes to
nothing, and none of the segments that are put after it is a dot segment.
-/

namespace Url

open Text

/-! ### Paths -/

/-- Whether a segment of a path stands for the directory itself. -/
def isSingleDot (segment : List Char) : Bool :=
  segment ∈ [".".toList, "%2e".toList, "%2E".toList]

/-- Whether a segment of a path stands for the directory above. -/
def isDoubleDot (segment : List Char) : Bool :=
  segment ∈ ["..".toList, "%2e%2e".toList, "%2e%2E".toList, "%2E%2e".toList, "%2E%2E".toList,
    "%2e.".toList, "%2E.".toList, ".%2e".toList, ".%2E".toList]

def isDots (segment : List Char) : Bool :=
  isSingleDot segment || isDoubleDot segment

/-- The directories after a segment, the innermost first. -/
def enter (stack : List (List Char)) (segment : List Char) : List (List Char) :=
  if isDoubleDot segment then stack.tail
  else if isSingleDot segment then stack
  else segment :: stack

/-- The segments of a path without its dot segments. -/
def resolve (stack : List (List Char)) : List (List Char) → List (List Char)
  | [] => stack.reverse
  | [segment] =>
      (if isDots segment then [] :: enter stack segment else enter stack segment).reverse
  | segment :: segments => resolve (enter stack segment) segments

/-- Whether a character stands for itself in a path. -/
def pathKeep (c : Char) : Bool :=
  0x20 < c.toNat && c.toNat < 0x7F &&
    c ∉ ['"', '#', '<', '>', '?', '^', Char.ofNat 0x60, '\x7b', '\x7d']

/-- Whether a character stands for itself in a query. -/
def queryKeep (c : Char) : Bool :=
  0x20 < c.toNat && c.toNat < 0x7F && c ∉ ['"', '#', '<', '>', Char.ofNat 0x27]

/-- Whether a character does not end a path. -/
def inPath (c : Char) : Bool :=
  c != '?' && c != '#'

/-- The segments of the path at the start of what follows an authority. -/
def segments (tail : List Char) : List (List Char) :=
  (splitList isSlash ((tail.takeWhile inPath).drop 1)).map (Percent.encode pathKeep)

/-- A path with the given segments. -/
def pathText (segments : List (List Char)) : List Char :=
  '/' :: ['/'].intercalate segments

def queryOf (tail : List Char) : Option String :=
  match tail.dropWhile inPath with
  | '?' :: query => some (String.ofList (Percent.encode queryKeep (query.takeWhile (· != '#'))))
  | _ => none

/-! ### URLs -/

/-- What a URL says of the request that is made for it. -/
structure Target where
  scheme : String
  host : String
  port : Option Nat
  path : String
  query : Option String
  deriving DecidableEq

/-- A host and a port, and what follows them in the text of a URL. -/
structure Located where
  scheme : String
  host : String
  port : Option Nat
  tail : List Char
  ends : ∀ c ∈ tail.head?, endsAuthority c = true

def Located.target (t : Located) : Target where
  scheme := t.scheme
  host := t.host
  port := t.port
  path := String.ofList (pathText (resolve [] (segments t.tail)))
  query := queryOf t.tail

/-- The port after a host, absent where it is the default. -/
def portOf (scheme : String) : List Char → Option (Option Nat)
  | [] => some none
  | _ :: digits =>
      if digits.all Char.isDigit then
        let n := digits.foldl (fun n d => n * 10 + (d.toNat - '0'.toNat)) 0
        if 65535 < n then none
        else if digits.isEmpty || knownDefault scheme == some n then some none
        else some (some n)
      else none

variable (parseHost : List Char → Option String)

/-- What follows the slashes after a scheme, at its authority. -/
def locateIn (scheme : String) (after : List Char) : Option Located :=
  let authority := after.takeWhile (!endsAuthority ·)
  let hostPort := authority.rtakeWhile (· != '@')
  let host := beforePort false hostPort
  if host = [] then none
  else
    match parseHost host, portOf scheme (hostPort.drop host.length) with
    | some host, some port =>
        some
          { scheme, host, port
            tail := after.dropWhile (!endsAuthority ·)
            ends := by
              intro c hc
              have hends := List.head?_dropWhile_not (!endsAuthority ·) after
              rw [Option.mem_def.mp hc] at hends
              simpa using hends }
    | _, _ => none

/-- The scheme, if it is `http` or `https`, and what follows the slashes after it. -/
def splitHttp (cs : List Char) : Option (String × List Char) :=
  (splitScheme cs).bind fun (scheme, rest) =>
    if String.ofList scheme ∈ ["http", "https"] then
      some (String.ofList scheme, rest.dropWhile isSlash)
    else none

def locate (cs : List Char) : Option Located :=
  (splitHttp cs).bind fun (scheme, after) => locateIn parseHost scheme after

/-- The parser of URLs, on those that are requested over `http` or `https`. -/
def parseHttp (s : String) : Option Target :=
  (locate parseHost (significant s.toList)).map Located.target

/-! ### Resolving -/

section Resolving

variable {stack : List (List Char)}

theorem resolve_append (front : List (List Char)) {back : List (List Char)} (hback : back ≠ []) :
  resolve stack (front ++ back) = resolve (front.foldl enter stack) back
  := by
  induction front generalizing stack with
  | nil => rfl
  | cons segment front ih =>
      rw [List.cons_append, resolve]
      · exact ih
      · intro h
        exact hback (List.append_eq_nil_iff.mp h).2

theorem enter_of_clear {segment : List Char} (h : isDots segment = false) :
  enter stack segment = segment :: stack
  := by
  rw [isDots, Bool.or_eq_false_iff] at h
  rw [enter, h.1, h.2]
  rfl

/-- Segments that are no dot segments stay as they are. -/
theorem resolve_of_clear {segments : List (List Char)}
    (h : ∀ segment ∈ segments, isDots segment = false) :
  resolve stack segments = stack.reverse ++ segments
  := by
  induction segments generalizing stack with
  | nil => exact (List.append_nil _).symm
  | cons segment segments ih =>
      have hclear := h segment List.mem_cons_self
      cases segments with
      | nil =>
          rw [resolve, hclear, enter_of_clear hclear]
          exact List.reverse_cons
      | cons segment' segments =>
          rw [resolve, enter_of_clear hclear, ih fun s hs => h s (List.mem_cons_of_mem _ hs),
            List.reverse_cons, List.append_assoc]
          · rfl
          · exact List.cons_ne_nil _ _

/-- What a segment is entered with is entered before, or is the segment, which is not a dot
segment. -/
theorem of_mem_enter {segment s : List Char} (h : s ∈ enter stack segment) :
  s ∈ stack ∨ s = segment ∧ isDots segment = false
  := by
  rw [enter] at h
  split at h
  · exact .inl (List.mem_of_mem_tail h)
  · split at h
    · exact .inl h
    · rename_i hdouble hsingle
      obtain rfl | hs := List.mem_cons.mp h
      · exact .inr ⟨rfl, by simp [isDots, hsingle, hdouble]⟩
      · exact .inl hs

/-- What is left is one of the segments, or is empty, and is not a dot segment. -/
theorem of_mem_resolve {segments : List (List Char)} {s : List Char}
    (h : s ∈ resolve stack segments) :
  s ∈ stack ∨ (s ∈ segments ∨ s = []) ∧ isDots s = false
  := by
  induction segments generalizing stack with
  | nil => exact .inl (List.mem_reverse.mp h)
  | cons segment segments ih =>
      have hentered : s ∈ enter stack segment →
          s ∈ stack ∨ (s ∈ segment :: segments ∨ s = []) ∧ isDots s = false := by
        intro hs
        obtain hs | ⟨rfl, hclear⟩ := of_mem_enter hs
        · exact .inl hs
        · exact .inr ⟨.inl List.mem_cons_self, hclear⟩
      cases segments with
      | nil =>
          rw [resolve, List.mem_reverse] at h
          split at h
          · obtain rfl | hs := List.mem_cons.mp h
            · exact .inr ⟨.inr rfl, rfl⟩
            · exact hentered hs
          · exact hentered h
      | cons segment' segments =>
          rw [resolve] at h
          · obtain hs | ⟨hs, hclear⟩ := ih h
            · exact hentered hs
            · exact .inr ⟨hs.imp_left (List.mem_cons_of_mem _), hclear⟩
          · exact List.cons_ne_nil _ _

theorem length_enter_le (segment : List Char) :
  (enter stack segment).length ≤ stack.length + 1
  := by
  rw [enter]
  split
  · rw [List.length_tail]
    omega
  · split
    · omega
    · exact le_refl _

theorem length_resolve_le (segments : List (List Char)) :
  (resolve stack segments).length ≤ stack.length + segments.length
  := by
  induction segments generalizing stack with
  | nil => rw [resolve, List.length_reverse, List.length_nil, Nat.add_zero]
  | cons segment segments ih =>
      cases segments with
      | nil =>
          rw [resolve, List.length_reverse]
          split
          · rename_i hdots
            rw [List.length_cons, List.length_singleton]
            have hentered : (enter stack segment).length ≤ stack.length := by
              rw [enter]
              split
              · rw [List.length_tail]
                omega
              · split
                · omega
                · simp_all [isDots]
            omega
          · exact length_enter_le segment
      | cons segment' segments =>
          rw [resolve]
          · have hentered := @length_enter_le stack segment
            have hrest := @ih (enter stack segment)
            rw [List.length_cons]
            omega
          · exact List.cons_ne_nil _ _

theorem resolve_ne_nil {segments : List (List Char)} (h : segments ≠ []) :
  resolve stack segments ≠ []
  := by
  induction segments generalizing stack with
  | nil => exact absurd rfl h
  | cons segment segments ih =>
      cases segments with
      | nil =>
          rw [resolve, Ne, List.reverse_eq_nil_iff]
          split
          · exact List.cons_ne_nil _ _
          · rename_i hdots
            rw [enter_of_clear (by simpa using hdots)]
            exact List.cons_ne_nil _ _
      | cons segment' segments =>
          rw [resolve]
          · exact ih (List.cons_ne_nil _ _)
          · exact List.cons_ne_nil _ _

/-- The segments that are entered are those, or are no dot segments. -/
theorem of_mem_foldl_enter {segments : List (List Char)} {s : List Char}
    (h : s ∈ segments.foldl enter stack) :
  s ∈ stack ∨ s ∈ segments ∧ isDots s = false
  := by
  induction segments generalizing stack with
  | nil => exact .inl h
  | cons segment segments ih =>
      obtain hs | ⟨hs, hclear⟩ := ih h
      · obtain hs | ⟨rfl, hclear⟩ := of_mem_enter hs
        · exact .inl hs
        · exact .inr ⟨List.mem_cons_self, hclear⟩
      · exact .inr ⟨List.mem_cons_of_mem _ hs, hclear⟩

end Resolving

/-! ### Paths that are put after a text -/

/-- Whether a character may stand in a segment that is put after a text. -/
def isSegmentChar (c : Char) : Bool :=
  pathKeep c && !isSlash c

theorem inPath_of_segmentChar {c : Char} (h : isSegmentChar c = true) :
  inPath c = true ∧ endsAuthority c = false ∧ isC0ControlOrSpace c = false
  := by
  simp only [isSegmentChar, pathKeep, Bool.and_eq_true, decide_eq_true_eq, Bool.not_eq_true',
    List.mem_cons, not_or] at h
  obtain ⟨⟨⟨hlow, _⟩, _, hnumber, _, _, hquestion, _⟩, hslash⟩ := h
  refine ⟨?_, ?_, ?_⟩
  · simp [inPath, hquestion, hnumber]
  · simp [endsAuthority, hslash, hquestion, hnumber]
  · simp only [isC0ControlOrSpace, decide_eq_false_iff_not]
    omega

/-- The segments of a path that is put after a text. -/
structure Segments where
  list : List (List Char)
  nonempty : list ≠ []
  chars : ∀ segment ∈ list, ∀ c ∈ segment, isSegmentChar c = true

namespace Segments

variable (p : Segments)

def text : List Char :=
  pathText p.list

end Segments

namespace Segments

variable {p : Segments} {c : Char}

theorem of_mem_intercalate {segments : List (List Char)} (h : c ∈ ['/'].intercalate segments) :
  c = '/' ∨ ∃ segment ∈ segments, c ∈ segment
  := by
  induction segments with
  | nil => cases h
  | cons segment segments ih =>
      cases segments with
      | nil =>
          rw [List.intercalate_singleton] at h
          exact .inr ⟨segment, List.mem_cons_self, h⟩
      | cons segment' segments =>
          rw [List.intercalate_cons_cons, List.mem_append, List.mem_append,
            List.mem_singleton] at h
          obtain (h | h) | h := h
          · exact .inr ⟨segment, List.mem_cons_self, h⟩
          · exact .inl h
          · obtain h | ⟨s, hs, h⟩ := ih h
            · exact .inl h
            · exact .inr ⟨s, List.mem_cons_of_mem _ hs, h⟩

theorem of_mem_text (h : c ∈ p.text) :
  inPath c = true ∧ isC0ControlOrSpace c = false
  := by
  have hslash : inPath '/' = true ∧ isC0ControlOrSpace '/' = false := by decide
  obtain rfl | h := List.mem_cons.mp h
  · exact hslash
  · obtain rfl | ⟨segment, hs, h⟩ := of_mem_intercalate h
    · exact hslash
    · have hc := inPath_of_segmentChar (p.chars segment hs c h)
      exact ⟨hc.1, hc.2.2⟩

end Segments

/-- A host and a port, with a path put after what follows them. -/
def Located.append (p : Segments) (t : Located) : Located :=
  { t with
    tail := t.tail ++ p.text
    ends := by
      intro c hc
      cases htail : t.tail with
      | nil =>
          rw [htail] at hc
          obtain rfl := Option.some.inj hc
          rfl
      | cons d tail =>
          apply t.ends c
          rw [htail] at hc ⊢
          exact hc }

/-- The characters of the start of a text that the parser reads. -/
def start (cs : List Char) : List Char :=
  (cs.dropWhile isC0ControlOrSpace).filter (!isTabOrNewline ·)

section Appending

variable {parseHost : List Char → Option String} {p : Segments} {cs after : List Char}
  {scheme : String}

theorem significant_append (p : Segments) (cs : List Char) :
  significant (cs ++ p.text) = start cs ++ p.text
  := by
  have hdrop : (cs ++ p.text).dropWhile isC0ControlOrSpace =
      cs.dropWhile isC0ControlOrSpace ++ p.text := by
    rw [List.dropWhile_append]
    split
    · rename_i hempty
      rw [List.isEmpty_iff.mp hempty]
      rfl
    · rfl
  have hend : (cs.dropWhile isC0ControlOrSpace ++ p.text).rdropWhile isC0ControlOrSpace =
      cs.dropWhile isC0ControlOrSpace ++ p.text := by
    apply List.rdropWhile_eq_self_iff.mpr
    intro hne
    have htext : p.text ≠ [] := List.cons_ne_nil _ _
    rw [List.getLast_append_of_ne_nil hne htext, (Segments.of_mem_text (List.getLast_mem htext)).2]
    exact Bool.false_ne_true
  have hkept : p.text.filter (!isTabOrNewline ·) = p.text := by
    apply List.filter_eq_self.mpr
    intro c hc
    rw [not_isTabOrNewline (Segments.of_mem_text hc).2]
    rfl
  rw [significant, hdrop, hend, List.filter_append, hkept]
  rfl

/-- The start of a list that satisfies `q` is not longer for what is put after the list, if that
does not satisfy it or the list does not. -/
theorem takeWhile_append {α : Type} {q : α → Bool} {l l' : List α}
    (h : l.dropWhile q ≠ [] ∨ l'.takeWhile q = []) :
  (l ++ l').takeWhile q = l.takeWhile q
  := by
  rw [List.takeWhile_append]
  split
  · rename_i hlength
    have hall : l.takeWhile q = l := (List.takeWhile_prefix q).eq_of_length hlength
    obtain h | h := h
    · have hparts := @List.takeWhile_append_dropWhile _ q l
      rw [hall] at hparts
      exact absurd (List.append_right_eq_self.mp hparts) h
    · rw [h, List.append_nil, hall]
  · rfl

theorem splitScheme_append (p : Segments) (cs : List Char) :
  splitScheme (cs ++ p.text) = (splitScheme cs).map fun (scheme, rest) => (scheme, rest ++ p.text)
  := by
  have hslash : ¬ isSchemeChar '/' = true := by decide
  cases hrest : cs.dropWhile isSchemeChar with
  | nil =>
      have hdrop : (cs ++ p.text).dropWhile isSchemeChar = p.text := by
        rw [List.dropWhile_append, hrest]
        exact List.dropWhile_cons_of_neg hslash
      rw [splitScheme, splitScheme, hdrop, hrest]
      cases (cs ++ p.text).head? with
      | none => cases cs.head? <;> rfl
      | some c => cases cs.head? <;> rfl
  | cons d rest =>
      have htake : (cs ++ p.text).takeWhile isSchemeChar = cs.takeWhile isSchemeChar :=
        takeWhile_append (.inl (by rw [hrest]; exact List.cons_ne_nil _ _))
      have hdrop : (cs ++ p.text).dropWhile isSchemeChar = d :: (rest ++ p.text) := by
        rw [List.dropWhile_append, hrest]
        rfl
      cases cs with
      | nil => cases hrest
      | cons c cs =>
          rw [splitScheme, splitScheme, htake, hdrop, hrest, List.cons_append, List.head?_cons,
            List.head?_cons]
          by_cases hcolon : d = ':'
          · subst hcolon
            simp only
            split
            · rfl
            · rfl
          · split
            · rename_i hcons
              exact absurd (List.cons.inj hcons).1 hcolon
            · split
              · rename_i hcons
                exact absurd (List.cons.inj hcons).1 hcolon
              · rfl

/-- What is put after a text is put after what follows its scheme; if nothing but slashes follows
that, the first segment is taken for the authority. -/
theorem splitHttp_append (p : Segments) (cs : List Char) :
  splitHttp (cs ++ p.text) = (splitHttp cs).map fun (scheme, after) =>
    (scheme, if after = [] then p.text.dropWhile isSlash else after ++ p.text)
  := by
  rw [splitHttp, splitHttp, splitScheme_append]
  cases splitScheme cs with
  | none => rfl
  | some split =>
      obtain ⟨scheme, rest⟩ := split
      simp only [Option.map_some, Option.bind_some]
      split
      · rw [Option.map_some, List.dropWhile_append]
        cases hafter : rest.dropWhile isSlash with
        | nil => rfl
        | cons c after => rfl
      · rfl

/-- What is put after a text is put after what follows its authority. -/
theorem locateIn_append (p : Segments) (after : List Char) :
  locateIn parseHost scheme (after ++ p.text) =
    (locateIn parseHost scheme after).map (Located.append p)
  := by
  have hslash : ¬ (!endsAuthority '/') = true := by decide
  have htake : (after ++ p.text).takeWhile (!endsAuthority ·) =
      after.takeWhile (!endsAuthority ·) := by
    apply takeWhile_append
    right
    exact List.takeWhile_cons_of_neg hslash
  have hdrop : (after ++ p.text).dropWhile (!endsAuthority ·) =
      after.dropWhile (!endsAuthority ·) ++ p.text := by
    rw [List.dropWhile_append]
    split
    · rename_i hempty
      rw [List.isEmpty_iff.mp hempty]
      exact List.dropWhile_cons_of_neg hslash
    · rfl
  rw [locateIn, locateIn]
  simp only [htake, hdrop]
  split
  · rfl
  · split
    · rfl
    · rfl

end Appending

/-! ### The path of a text that a path is put after -/

namespace Located

variable {t : Located} {p p' : Segments}

/-- The segments of the path that a text has of its own. -/
def ownSegments (t : Located) : List (List Char) :=
  if t.tail = [] then [] else segments t.tail

/-- The directories that the path of a text leads into, the innermost first. -/
def directories (t : Located) : List (List Char) :=
  t.ownSegments.foldl enter []

/-- Whether a text has neither a query nor a fragment. -/
def IsOpen (t : Located) : Prop :=
  ∀ c ∈ t.tail, inPath c = true

theorem not_isSlash_of_mem {tail segment : List Char} {c : Char} (h : segment ∈ segments tail)
    (hc : c ∈ segment) :
  isSlash c = false
  := by
  have hdigits : ∀ c ∈ Percent.digits, isSlash c = false := by decide
  obtain ⟨part, hpart, rfl⟩ := List.mem_map.mp h
  obtain ⟨hmem, _⟩ | rfl | hdigit := Percent.mem_encode hc
  · exact not_of_mem_splitList hpart c hmem
  · rfl
  · exact hdigits c hdigit

theorem not_isSlash_of_mem_list {segment : List Char} {c : Char} (h : segment ∈ p.list)
    (hc : c ∈ segment) :
  isSlash c = false
  := by
  have hchar := p.chars segment h c hc
  rw [isSegmentChar, Bool.and_eq_true, Bool.not_eq_true'] at hchar
  exact hchar.2

theorem splitList_list (p : Segments) :
  (splitList isSlash (['/'].intercalate p.list)).map (Percent.encode pathKeep) = p.list
  := by
  have hslash : isSlash '/' = true := rfl
  rw [splitList_intercalate hslash p.nonempty fun s hs c hc => not_isSlash_of_mem_list hs hc]
  conv_rhs => rw [← List.map_id p.list]
  apply List.map_congr_left
  intro segment hs
  apply Percent.encode_eq_self
  intro c hc
  have hchar := p.chars segment hs c hc
  rw [isSegmentChar, Bool.and_eq_true] at hchar
  exact hchar.1

theorem takeWhile_inPath {l : List Char} (h : ∀ c ∈ l, inPath c = true) :
  l.takeWhile inPath = l
  := List.takeWhile_eq_self_iff.mpr h

theorem segments_text (p : Segments) :
  segments p.text = p.list
  := by
  have htake : p.text.takeWhile inPath = p.text :=
    takeWhile_inPath fun c hc => (Segments.of_mem_text hc).1
  rw [segments, htake]
  exact splitList_list p

/-- The path that is put after a text without query or fragment follows the text's own. -/
theorem segments_append (h : t.IsOpen) (p : Segments) :
  segments (t.tail ++ p.text) = t.ownSegments ++ p.list
  := by
  have htake : (t.tail ++ p.text).takeWhile inPath = t.tail ++ p.text := by
    apply takeWhile_inPath
    intro c hc
    obtain hc | hc := List.mem_append.mp hc
    · exact h c hc
    · exact (Segments.of_mem_text hc).1
  rw [segments, htake, ownSegments]
  cases htail : t.tail with
  | nil =>
      rw [if_pos rfl]
      exact splitList_list p
  | cons c tail =>
      have hslash : isSlash '/' = true := rfl
      rw [if_neg (List.cons_ne_nil _ _), segments, takeWhile_inPath (htail ▸ h)]
      change (splitList isSlash (tail ++ '/' :: ['/'].intercalate p.list)).map _ =
        (splitList isSlash tail).map _ ++ p.list
      rw [splitList_append_cons hslash, List.map_append, splitList_list]

/-- After a query or in a fragment, what is put after a text is no part of its path. -/
theorem segments_append_of_not_isOpen (h : ¬ t.IsOpen) (p : Segments) :
  segments (t.tail ++ p.text) = segments t.tail
  := by
  have hne : t.tail.dropWhile inPath ≠ [] := by
    intro hnil
    apply h
    have hparts := @List.takeWhile_append_dropWhile _ inPath t.tail
    rw [hnil, List.append_nil] at hparts
    exact List.takeWhile_eq_self_iff.mp hparts
  rw [segments, segments, takeWhile_append (.inl hne)]

theorem pathText_inj {segments segments' : List (List Char)} (hne : segments ≠ [])
    (hne' : segments' ≠ []) (h : ∀ s ∈ segments, ∀ c ∈ s, isSlash c = false)
    (h' : ∀ s ∈ segments', ∀ c ∈ s, isSlash c = false) (heq : pathText segments = pathText segments') :
  segments = segments'
  := by
  have hslash : isSlash '/' = true := rfl
  rw [← splitList_intercalate hslash hne h, ← splitList_intercalate hslash hne' h',
    (List.cons.inj heq).2]

theorem of_mem_directories {segment : List Char} (h : segment ∈ t.directories) :
  isDots segment = false ∧ ∀ c ∈ segment, isSlash c = false
  := by
  obtain h | ⟨h, hclear⟩ := of_mem_foldl_enter h
  · cases h
  · rw [ownSegments] at h
    split at h
    · cases h
    · exact ⟨hclear, fun c hc => not_isSlash_of_mem h hc⟩

/-- What is put after a text is the whole path of the URL just if the text's own path comes to
nothing and no segment is a dot segment. -/
theorem path_append_iff (h : t.IsOpen) (p : Segments) :
  pathText (resolve [] (segments (t.append p).tail)) = p.text ↔
    t.directories = [] ∧ ∀ segment ∈ p.list, isDots segment = false
  := by
  change pathText (resolve [] (segments (t.tail ++ p.text))) = _ ↔ _
  rw [segments_append h, resolve_append _ p.nonempty]
  change pathText (resolve t.directories p.list) = _ ↔ _
  constructor
  · intro heq
    have hsame : resolve t.directories p.list = p.list := by
      apply pathText_inj (resolve_ne_nil p.nonempty) p.nonempty _ _ heq
      · intro segment hs c hc
        obtain hs | ⟨hs | rfl, _⟩ := of_mem_resolve hs
        · exact (of_mem_directories hs).2 c hc
        · exact not_isSlash_of_mem_list hs hc
        · cases hc
      · exact fun segment hs c hc => not_isSlash_of_mem_list hs hc
    have hclear : ∀ segment ∈ p.list, isDots segment = false := by
      intro segment hs
      rw [← hsame] at hs
      obtain hs | ⟨_, hs⟩ := of_mem_resolve hs
      · exact (of_mem_directories hs).1
      · exact hs
    rw [resolve_of_clear hclear] at hsame
    exact ⟨List.reverse_eq_nil_iff.mp (List.append_left_eq_self.mp hsame), hclear⟩
  · rintro ⟨hnil, hclear⟩
    rw [hnil, resolve_of_clear hclear]
    rfl

/-- A path is not the rest of it that follows its first segment. -/
theorem path_tail_ne {segment : List Char} (hlist : p.list = segment :: p'.list) :
  pathText (resolve [] (segments p'.text)) ≠ p.text
  := by
  intro heq
  rw [segments_text] at heq
  have hsame : resolve [] p'.list = p.list := by
    apply pathText_inj (resolve_ne_nil p'.nonempty) p.nonempty _ _ heq
    · intro segment hs c hc
      obtain hs | ⟨hs | rfl, _⟩ := of_mem_resolve hs
      · cases hs
      · exact not_isSlash_of_mem_list hs hc
      · cases hc
    · exact fun segment hs c hc => not_isSlash_of_mem_list hs hc
  have hlength := @length_resolve_le [] p'.list
  rw [hsame, hlist, List.length_cons, List.length_nil] at hlength
  omega

end Located

section Parsing

variable {parseHost : List Char → Option String} {p p' : Segments} {cs after : List Char}
  {scheme : String}

/-- A path that is put after a text that names a host. -/
theorem parseHttp_append (h : splitHttp (start cs) = some (scheme, after)) (hne : after ≠ [])
    (p : Segments) :
  parseHttp parseHost (String.ofList (cs ++ p.text)) =
    (locate parseHost (start cs)).map fun t => (t.append p).target
  := by
  rw [parseHttp, String.toList_ofList, significant_append, locate, splitHttp_append, h, locate, h,
    Option.map_some, Option.bind_some, Option.bind_some]
  dsimp only
  rw [if_neg hne, locateIn_append, Option.map_map]
  rfl

theorem parseHttp_append_of_none (h : splitHttp (start cs) = none) (p : Segments) :
  parseHttp parseHost (String.ofList (cs ++ p.text)) = none
  := by
  rw [parseHttp, String.toList_ofList, significant_append, locate, splitHttp_append, h]
  rfl

/-- A path that is put after a text that names no host: its first segment is taken for one. -/
theorem parseHttp_append_of_nil (h : splitHttp (start cs) = some (scheme, [])) {segment : List Char}
    (hlist : p.list = segment :: p'.list) (hne : segment ≠ []) :
  parseHttp parseHost (String.ofList (cs ++ p.text)) =
    (locateIn parseHost scheme segment).map fun t => (t.append p').target
  := by
  have htext : p.text = '/' :: (segment ++ p'.text) := by
    rw [Segments.text, pathText, hlist]
    cases hrest : p'.list with
    | nil => exact absurd hrest p'.nonempty
    | cons segment' segments =>
        rw [List.intercalate_cons_cons, Segments.text, pathText, hrest, List.append_assoc]
        rfl
  have hdrop : p.text.dropWhile isSlash = segment ++ p'.text := by
    have hslash : isSlash '/' = true := rfl
    rw [htext, List.dropWhile_cons_of_pos hslash]
    cases hsegment : segment with
    | nil => exact absurd hsegment hne
    | cons c segment' =>
        have hmem : segment ∈ p.list := hlist ▸ List.mem_cons_self
        have hc := Located.not_isSlash_of_mem_list hmem (hsegment ▸ List.mem_cons_self : c ∈ segment)
        exact List.dropWhile_cons_of_neg (by rw [hc]; exact Bool.false_ne_true)
  rw [parseHttp, String.toList_ofList, significant_append, locate, splitHttp_append, h,
    Option.map_some, Option.bind_some]
  dsimp only
  rw [if_pos rfl, hdrop, locateIn_append, Option.map_map]
  rfl

/-- What follows an authority that ends nowhere is nothing. -/
theorem tail_of_locateIn {segment : List Char} {t : Located}
    (h : locateIn parseHost scheme segment = some t) (hmem : segment ∈ p.list) :
  t.tail = []
  := by
  rw [locateIn] at h
  split at h
  · cases h
  · split at h
    · obtain rfl := Option.some.inj h
      apply List.dropWhile_eq_nil_iff.mpr
      intro c hc
      rw [(inPath_of_segmentChar (p.chars segment hmem c hc)).2.1]
      rfl
    · cases h

/-- What follows a colon follows the scheme, so that it is an authority if it is no slash. -/
theorem after_ne_nil {x y : List Char} {c : Char} (hc : c ∈ y) (htab : isTabOrNewline c = false)
    (hslash : isSlash c = false) (h : splitHttp (start (x ++ ':' :: y)) = some (scheme, after)) :
  after ≠ []
  := by
  have hstart : start (x ++ ':' :: y) =
      (x.dropWhile isC0ControlOrSpace).filter (!isTabOrNewline ·) ++
        ':' :: y.filter (!isTabOrNewline ·) := by
    have hcolon : ¬ isC0ControlOrSpace ':' = true := by decide
    rw [start, List.dropWhile_append]
    split
    · rename_i hempty
      rw [List.dropWhile_cons_of_neg hcolon, List.isEmpty_iff.mp hempty]
      rfl
    · rw [List.filter_append]
      rfl
  have hmem : c ∈ y.filter (!isTabOrNewline ·) :=
    List.mem_filter.mpr ⟨hc, by rw [htab]; rfl⟩
  rw [hstart] at h
  generalize (x.dropWhile isC0ControlOrSpace).filter (!isTabOrNewline ·) = front at h
  generalize y.filter (!isTabOrNewline ·) = back at h hmem
  obtain ⟨⟨s, rest⟩, hsplit, hrest⟩ := Option.bind_eq_some_iff.mp h
  have hcolon : ¬ isSchemeChar ':' = true := by decide
  have hcrest : c ∈ rest := by
    rw [splitScheme] at hsplit
    split at hsplit
    · rename_i hdrop
      split at hsplit
      · obtain ⟨_, rfl⟩ := Prod.mk.inj (Option.some.inj hsplit)
        rw [List.dropWhile_append] at hdrop
        split at hdrop
        · rw [List.dropWhile_cons_of_neg hcolon] at hdrop
          exact (List.cons.inj hdrop).2 ▸ hmem
        · cases hfront : front.dropWhile isSchemeChar with
          | nil =>
              rw [hfront] at hdrop
              exact (List.cons.inj hdrop).2 ▸ hmem
          | cons d front' =>
              rw [hfront] at hdrop
              rw [← (List.cons.inj hdrop).2]
              exact List.mem_append_right _ (List.mem_cons_of_mem _ hmem)
      · cases hsplit
    · cases hsplit
  dsimp only at hrest
  split at hrest
  · obtain ⟨_, rfl⟩ := Prod.mk.inj (Option.some.inj hrest)
    intro hnil
    rw [List.dropWhile_eq_nil_iff.mp hnil c hcrest] at hslash
    cases hslash
  · cases hrest

end Parsing

end Url
