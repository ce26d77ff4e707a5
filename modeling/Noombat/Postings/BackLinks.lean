import Noombat.Postings.DomainProof
import Noombat.TextCuts
import Noombat.UrlParts

/-!
# Back links

Two links are taken for one if they come to the same text once their schemes, the letter case of
their authorities, default ports, one slash at the end and fragments are left out.  The text is cut
by hand: this names one profile for links that are written plainly, and for others it need not.
-/

namespace Postings

open Url

/-! ### Suffixes -/

/-- A list without a suffix, if it has it. -/
def stripped (suffix l : List Char) : List Char :=
  if suffix.isSuffixOf l then l.take (l.length - suffix.length) else l

theorem toList_stripSuffix (suffix s : String) :
  ((Text.stripSuffix suffix s).getD s).toList = stripped suffix.toList s.toList
  := by
  rw [Text.stripSuffix, stripped]
  split
  · exact String.toList_ofList
  · rfl

theorem stripped_append (l suffix : List Char) :
  stripped suffix (l ++ suffix) = l
  := by
  rw [stripped, if_pos (List.isSuffixOf_iff_suffix.mpr (List.suffix_append l suffix)),
    List.length_append, Nat.add_sub_cancel, List.take_left]

theorem stripped_of_not {suffix l : List Char} (h : ¬ suffix <:+ l) :
  stripped suffix l = l
  := if_neg fun hsuffix => h (List.isSuffixOf_iff_suffix.mp hsuffix)

theorem suffix_slash_iff (l : List Char) :
  ['/'] <:+ l ↔ l.getLast? = some '/'
  := by
  constructor
  · rintro ⟨front, rfl⟩
    exact List.getLast?_concat
  · intro h
    obtain ⟨front, rfl⟩ := List.getLast?_eq_some_iff.mp h
    exact List.suffix_append front ['/']

/-- Lists that are the same without a slash at the end differ by that slash at most. -/
theorem slash_of_stripped {l l' : List Char} (h : stripped ['/'] l = stripped ['/'] l') :
  l = l' ∨ AddsSlash l l' ∨ AddsSlash l' l
  := by
  by_cases hl : ['/'] <:+ l
  · obtain ⟨front, rfl⟩ := hl
    rw [stripped_append] at h
    by_cases hl' : ['/'] <:+ l'
    · obtain ⟨front', rfl⟩ := hl'
      rw [stripped_append] at h
      exact .inl (by rw [h])
    · rw [stripped_of_not hl'] at h
      obtain rfl := h
      exact .inr (.inr ⟨rfl, fun hlast => hl' ((suffix_slash_iff _).mpr hlast)⟩)
  · rw [stripped_of_not hl] at h
    by_cases hl' : ['/'] <:+ l'
    · obtain ⟨front', rfl⟩ := hl'
      rw [stripped_append] at h
      obtain rfl := h
      exact .inr (.inl ⟨rfl, fun hlast => hl ((suffix_slash_iff _).mpr hlast)⟩)
    · rw [stripped_of_not hl'] at h
      exact .inl h

theorem stripped_addsSlash {l l' : List Char} (h : AddsSlash l l') :
  stripped ['/'] l = stripped ['/'] l'
  := by
  rw [h.1, stripped_append, stripped_of_not fun hsuffix => h.2 ((suffix_slash_iff _).mp hsuffix)]

/-- What stands at the end after the last of an element. -/
theorem rtakeWhile_append_cons {p : Char → Bool} {a : Char} {l : List Char} (front : List Char)
    (ha : p a = false) (hl : ∀ c ∈ l, p c = true) :
  (front ++ a :: l).rtakeWhile p = l
  := by
  have hreverse : (front ++ a :: l).reverse = l.reverse ++ a :: front.reverse := by simp
  have hends : ¬ p a = true := by
    rw [ha]
    exact Bool.false_ne_true
  rw [List.rtakeWhile, hreverse,
    List.takeWhile_append_of_pos fun c hc => hl c (List.mem_reverse.mp hc),
    List.takeWhile_cons_of_neg hends, List.append_nil, List.reverse_reverse]

/-! ### Ports -/

/-- What is left of a port. -/
def knownPort (port : List Char) : List Char :=
  if port = ":443".toList ∨ port = ":80".toList then [] else port

/-- A colon and digits. -/
def IsPort (port : List Char) : Prop :=
  ∃ digits, port = ':' :: digits ∧ ∀ d ∈ digits, d.isDigit = true

theorem ne_of_isDigit {c d : Char} (h : c.isDigit = true) (hd : d.isDigit = false) :
  c ≠ d
  := by
  rintro rfl
  rw [hd] at h
  cases h

/-- At the end there is one port. -/
theorem port_suffix_iff {front digits digits' : List Char}
    (h : ∀ d ∈ digits, d.isDigit = true) (h' : ∀ d ∈ digits', d.isDigit = true) :
  ':' :: digits' <:+ front ++ ':' :: digits ↔ digits' = digits
  := by
  constructor
  · rintro ⟨front', heq⟩
    have hends : ((':' : Char) != ':') = false := by decide
    have hleft := rtakeWhile_append_cons (p := (· != ':')) front' hends
      fun c hc => bne_iff_ne.mpr (ne_of_isDigit (h' c hc) rfl)
    have hright := rtakeWhile_append_cons (p := (· != ':')) front hends
      fun c hc => bne_iff_ne.mpr (ne_of_isDigit (h c hc) rfl)
    rw [← hleft, heq, hright]
  · rintro rfl
    exact List.suffix_append front _

/-- Of a text that ends in no port, followed by a port, the default ports are stripped. -/
theorem stripped_ports {front port : List Char} (hfront : ∀ port, IsPort port → 1 < port.length →
      ¬ port <:+ front) (hport : port = [] ∨ IsPort port) :
  stripped ":80".toList (stripped ":443".toList (front ++ port)) = front ++ knownPort port
  := by
  have h443 : IsPort ":443".toList := ⟨['4', '4', '3'], rfl, by decide⟩
  have h80 : IsPort ":80".toList := ⟨['8', '0'], rfl, by decide⟩
  have hkept443 := stripped_of_not (hfront _ h443 (by decide))
  have hkept80 := stripped_of_not (hfront _ h80 (by decide))
  obtain rfl | ⟨digits, rfl, hdigits⟩ := hport
  · rw [List.append_nil, hkept443, hkept80]
    exact (List.append_nil front).symm
  · rw [knownPort]
    by_cases his443 : ':' :: digits = ":443".toList
    · rw [if_pos (.inl his443), his443, stripped_append, hkept80, List.append_nil]
    · have hnot443 : ¬ ":443".toList <:+ front ++ ':' :: digits := by
        intro hsuffix
        have heq := (@port_suffix_iff _ _ ['4', '4', '3'] hdigits (by decide)).mp hsuffix
        exact his443 (by rw [← heq]; rfl)
      rw [stripped_of_not hnot443]
      by_cases his80 : ':' :: digits = ":80".toList
      · rw [if_pos (.inr his80), his80, stripped_append, List.append_nil]
      · have hnot80 : ¬ ":80".toList <:+ front ++ ':' :: digits := by
          intro hsuffix
          have heq := (@port_suffix_iff _ _ ['8', '0'] hdigits (by decide)).mp hsuffix
          exact his80 (by rw [← heq]; rfl)
        rw [stripped_of_not hnot80, if_neg (not_or.mpr ⟨his443, his80⟩)]

/-! ### Plain links -/

/-- How hosts are read: without regard to the case of ASCII letters, and with colons in addresses
between brackets alone. -/
structure ReadsHosts (parseHost : List Char → Option String) : Prop where
  ignoresCase : ∀ host host', host.map Char.toLower = host'.map Char.toLower →
    parseHost host = parseHost host'
  bracketed : ∀ host, ':' ∈ host → (parseHost host).isSome = true → host.getLast? = some ']'

/-- The port is the default one of the scheme. -/
def HasDefaultPort (u : HttpUrl) : Prop :=
  portOf u.schemeName u.port = some none

instance (u : HttpUrl) : Decidable (HasDefaultPort u) :=
  inferInstanceAs (Decidable (portOf u.schemeName u.port = some none))

/-- A link that is written plainly: what follows the authority is a path; a default port is left
out or written as such; no white space is trimmed off what is compared; and if there is a query,
neither it nor the path ends in a slash alone. -/
structure IsPlainLink (u : HttpUrl) : Prop where
  rooted : u.path = [] → u.query = [] ∧ u.fragment = []
  port : HasDefaultPort u → knownPort u.port = []
  untrimmed : u.fragment = [] →
    ∀ c ∈ (u.authority ++ u.path ++ u.query).getLast?, Text.isWhitespace c = false
  slashes : u.query ≠ [] → ¬ EndsInOneSlash u.path ∧ ¬ EndsInOneSlash u.query

section Normalising

variable {u v : HttpUrl} {parseHost : List Char → Option String}

theorem map_toLower_digits {digits : List Char} (h : ∀ d ∈ digits, d.isDigit = true) :
  digits.map Char.toLower = digits
  := by
  conv_rhs => rw [← List.map_id digits]
  apply List.map_congr_left
  intro d hd
  obtain hlower | ⟨halpha, _⟩ := Text.toLower_cases d
  · exact hlower
  · have hdigit := h d hd
    simp only [Text.isAlpha_eq, Text.isUpper_eq, Text.isLower_eq, Char.isDigit, Bool.or_eq_true,
      Bool.and_eq_true, decide_eq_true_eq, UInt32.le_iff_toNat_le, ge_iff_le, Char.reduceVal]
      at halpha hdigit
    have h57 : (57 : UInt32).toNat = 57 := rfl
    have h65 : (65 : UInt32).toNat = 65 := rfl
    have h97 : (97 : UInt32).toNat = 97 := rfl
    omega

/-- What stands before the port ends in no port. -/
theorem no_port (hreads : ReadsHosts parseHost) (hhost : (parseHost u.host).isSome = true)
    (hne : u.host ≠ []) (port : List Char) (hport : IsPort port) (hlong : 1 < port.length) :
  ¬ port <:+ (u.userinfo ++ u.host).map Char.toLower
  := by
  obtain ⟨digits, rfl, hdigits⟩ := hport
  rintro ⟨front, heq⟩
  rw [List.map_append] at heq
  have hdigitsNe : digits ≠ [] := by
    rintro rfl
    exact absurd hlong (by decide)
  have hhostNe : u.host.map Char.toLower ≠ [] := fun hnil => hne (List.map_eq_nil_iff.mp hnil)
  by_cases hcolon : ':' ∈ u.host
  · have hlast := hreads.bracketed u.host hcolon hhost
    have hleft : (front ++ ':' :: digits).getLast? = digits.getLast? := by
      rw [List.getLast?_append_of_ne_nil _ (List.cons_ne_nil _ _),
        List.getLast?_cons_of_ne_nil hdigitsNe]
    have hright : (u.userinfo.map Char.toLower ++ u.host.map Char.toLower).getLast? =
        some ']' := by
      rw [List.getLast?_append_of_ne_nil _ hhostNe, List.getLast?_map, hlast]
      rfl
    rw [← heq, hleft] at hright
    have hdigit := hdigits ']' (List.mem_of_getLast? hright)
    cases hdigit
  · have hkept : ∀ c ∈ u.host.map Char.toLower, (c != ':' && c != '@') = true := by
      intro c hc
      obtain ⟨d, hd, rfl⟩ := List.mem_map.mp hc
      have hat : (d != '@') = true := by
        apply u.not_at_of_mem_hostPort
        rw [u.hostPort_eq]
        exact List.mem_append_left _ hd
      have hdcolon : d ≠ ':' := fun h => hcolon (h ▸ hd)
      rw [Bool.and_eq_true, bne_iff_ne, bne_iff_ne]
      exact ⟨fun h => hdcolon ((Text.toLower_eq_iff rfl d).mp h),
        fun h => bne_iff_ne.mp hat ((Text.toLower_eq_iff rfl d).mp h)⟩
    have hkeptDigits : ∀ c ∈ digits, (c != ':' && c != '@') = true := by
      intro c hc
      rw [Bool.and_eq_true, bne_iff_ne, bne_iff_ne]
      exact ⟨ne_of_isDigit (hdigits c hc) rfl, ne_of_isDigit (hdigits c hc) rfl⟩
    have hcolonMem : ':' ∈ u.userinfo.map Char.toLower ++ u.host.map Char.toLower := by
      rw [← heq]
      exact List.mem_append_right _ List.mem_cons_self
    obtain hnil | ⟨before, hbefore⟩ := u.userinfo_cases
    · rw [hnil, List.map_nil, List.nil_append] at hcolonMem
      have himpossible := hkept ':' hcolonMem
      cases himpossible
    · have hat : (u.userinfo.map Char.toLower ++ u.host.map Char.toLower) =
          before.map Char.toLower ++ '@' :: u.host.map Char.toLower := by
        rw [hbefore, List.map_append, List.append_assoc]
        rfl
      rw [hat] at heq
      have hleft := rtakeWhile_append_cons (p := fun c => c != ':' && c != '@') (a := ':')
        front rfl hkeptDigits
      have hright := rtakeWhile_append_cons (p := fun c => c != ':' && c != '@') (a := '@')
        (before.map Char.toLower) rfl hkept
      have hsame : digits = u.host.map Char.toLower := by rw [← hleft, heq, hright]
      have hlast : (front ++ [':']) ++ digits = (before.map Char.toLower ++ ['@']) ++ digits := by
        conv_rhs => rw [hsame]
        simpa using heq
      have hends := congrArg List.getLast? (List.append_cancel_right hlast)
      rw [List.getLast?_concat, List.getLast?_concat] at hends
      cases hends

/-- Trimming reaches nothing but the fragment. -/
theorem trim_text (h : IsPlainLink u) :
  ∃ rest, Text.trim u.text = String.ofList (u.scheme ++ "://".toList ++
      (u.authority ++ (u.path ++ u.query ++ rest))) ∧
    (∀ c ∈ rest.head?, c = '#') ∧ (u.fragment = [] → rest = [])
  := by
  have hstart : u.chars.dropWhile Text.isWhitespace = u.chars := by
    rw [HttpUrl.chars]
    cases hscheme : u.scheme with
    | nil => exact absurd hscheme u.scheme_ne_nil
    | cons c scheme =>
        apply List.dropWhile_cons_of_neg
        rw [Text.isWhitespace_of_isAlpha (u.alphabetic c (by rw [hscheme]; exact List.mem_cons_self))]
        exact Bool.false_ne_true
  have htrim : Text.trim u.text = String.ofList (u.chars.rdropWhile Text.isWhitespace) := by
    rw [Text.trim, HttpUrl.text, String.toList_ofList, hstart]
    rfl
  have hchars : u.chars = (u.scheme ++ "://".toList ++ (u.authority ++ u.path ++ u.query)) ++
      u.fragment := by
    simp [HttpUrl.chars, HttpUrl.tail]
  have hne : u.authority ++ u.path ++ u.query ≠ [] := by
    intro hnil
    exact u.nonempty (List.append_eq_nil_iff.mp (List.append_eq_nil_iff.mp hnil).1).1
  cases hfragment : u.fragment with
  | nil =>
      refine ⟨[], ?_, (by intro _ h; cases h), fun _ => rfl⟩
      rw [htrim, hchars, hfragment, List.append_nil, List.append_nil]
      have hkept : (u.scheme ++ "://".toList ++ (u.authority ++ u.path ++ u.query)).rdropWhile
          Text.isWhitespace = u.scheme ++ "://".toList ++ (u.authority ++ u.path ++ u.query) := by
        apply List.rdropWhile_eq_self_iff.mpr
        intro hfull
        rw [List.getLast_append_of_ne_nil hfull hne]
        rw [h.untrimmed hfragment _ (List.getLast?_eq_some_getLast hne)]
        exact Bool.false_ne_true
      rw [hkept, List.append_assoc u.authority]
  | cons c fragment =>
      obtain rfl := u.marked c (by rw [hfragment]; rfl)
      refine ⟨'#' :: fragment.rdropWhile Text.isWhitespace, ?_, ?_,
        (by intro h; cases h)⟩
      · have hfront : (u.scheme ++ "://".toList ++ (u.authority ++ u.path ++ u.query) ++
            ['#']).rdropWhile Text.isWhitespace =
              u.scheme ++ "://".toList ++ (u.authority ++ u.path ++ u.query) ++ ['#'] :=
          List.rdropWhile_concat_neg _ _ _ (by decide)
        have hsplit : u.chars = (u.scheme ++ "://".toList ++
            (u.authority ++ u.path ++ u.query) ++ ['#']) ++ fragment := by
          rw [hchars, hfragment]
          simp
        rw [htrim, hsplit, rdropWhile_append_of_last _ hfront]
        simp
      · intro d hd
        exact (Option.some.inj hd).symm

/-- The text to which a plain link comes. -/
theorem toList_normaliseBackLink (hreads : ReadsHosts parseHost) {t : Target}
    (hparse : parseHttp parseHost u.text = some t) (h : IsPlainLink u) :
  (normaliseBackLink u.text).toList =
    (u.userinfo ++ u.host).map Char.toLower ++ knownPort u.port ++
      stripped ['/'] (u.path ++ u.query)
  := by
  obtain ⟨hne, _, hhost, hportOf, _⟩ := HttpUrl.parseHttp_text hparse
  obtain ⟨rest, htrim, hrest, hnone⟩ := trim_text h
  have hscheme : ':' ∉ u.scheme := by
    intro hmem
    have halpha := u.alphabetic ':' hmem
    cases halpha
  have hslash : '/' ∉ u.authority := by
    intro hmem
    have hwithin := u.within '/' hmem
    cases hwithin
  have hsplit : ((Text.splitOnceStr "://" (String.ofList (u.scheme ++ "://".toList ++
      (u.authority ++ (u.path ++ u.query ++ rest))))).map Prod.snd) =
        some (String.ofList (u.authority ++ (u.path ++ u.query ++ rest))) := by
    have hfound := @cutAt_of_not_mem u.scheme (u.authority ++ (u.path ++ u.query ++ rest)) hscheme
    rw [Text.splitOnceStr, @String.toList_ofList (u.scheme ++ "://".toList ++ _), hfound]
    rfl
  have hpath : (Text.split '#' (String.ofList (u.path ++ u.query ++ rest))).headD "" =
      String.ofList (u.path ++ u.query) := by
    have hkept : ∀ c ∈ u.path ++ u.query, (!(c == '#')) = true := by
      intro c hc
      rw [Bool.not_eq_true', beq_eq_false_iff_ne]
      obtain hc | hc := List.mem_append.mp hc
      · rintro rfl
        have hin := u.inPath '#' hc
        cases hin
      · exact u.noFragment c hc
    have htake : (u.path ++ u.query ++ rest).takeWhile (!· == '#') = u.path ++ u.query := by
      rw [List.takeWhile_append_of_pos hkept]
      cases rest with
      | nil => exact List.append_nil _
      | cons c rest =>
          obtain rfl := hrest c rfl
          exact List.append_nil _
    have hhead := Text.head_splitList (· == '#') (u.path ++ u.query ++ rest)
    rw [Text.split, String.toList_ofList, List.headD_eq_head?_getD, List.head?_map, hhead, htake]
    rfl
  have hport : u.port = [] ∨ IsPort u.port := by
    cases hcons : u.port with
    | nil => exact .inl rfl
    | cons c digits =>
        obtain rfl := u.colon_port c (by rw [hcons]; rfl)
        rw [hcons] at hportOf
        exact .inr ⟨digits, rfl, portOf_digits hportOf⟩
  have hlower : u.authority.map Char.toLower =
      (u.userinfo ++ u.host).map Char.toLower ++ u.port := by
    have hkept : u.port.map Char.toLower = u.port := by
      obtain hnil | ⟨digits, hcons, hdigits⟩ := hport
      · rw [hnil]
        rfl
      · rw [hcons, List.map_cons, map_toLower_digits hdigits]
        rfl
    rw [u.authority_eq, u.hostPort_eq, ← List.append_assoc, List.map_append, hkept]
  have hfolded : (Text.toAsciiLowercase (String.ofList u.authority)).toList =
      (u.userinfo ++ u.host).map Char.toLower ++ u.port := by
    rw [Text.toAsciiLowercase, Text.map, String.toList_ofList, String.toList_ofList, hlower]
  have hsome : (parseHost u.host).isSome = true := by
    rw [hhost]
    rfl
  have hports := stripped_ports (no_port hreads hsome hne) hport
  have hfinish : (([":443", ":80"].foldl
      (fun authority default => (Text.stripSuffix default authority).getD authority)
        (Text.toAsciiLowercase (String.ofList u.authority))) ++
      (Text.stripSuffix "/" ((Text.split '#' (String.ofList (u.path ++ u.query ++ rest))).headD
        "")).getD ((Text.split '#' (String.ofList (u.path ++ u.query ++ rest))).headD "")).toList =
      (u.userinfo ++ u.host).map Char.toLower ++ knownPort u.port ++
        stripped ['/'] (u.path ++ u.query) := by
    simp only [List.foldl_cons, List.foldl_nil]
    rw [hpath, String.toList_append, toList_stripSuffix, toList_stripSuffix, toList_stripSuffix,
      hfolded, hports, @String.toList_ofList (u.path ++ u.query)]
    rfl
  rw [← hfinish, normaliseBackLink]
  simp only [htrim, hsplit, Option.getD_some]
  cases hcase : u.path with
  | nil =>
      obtain ⟨hquery, hfragment⟩ := h.rooted hcase
      rw [hquery, hnone hfragment, List.append_nil, List.append_nil, List.append_nil,
        Text.find_eq_none (by rw [String.toList_ofList]; exact hslash)]
  | cons c path =>
      obtain rfl := u.rooted c (by rw [hcase]; rfl)
      rw [List.cons_append, List.cons_append, Text.find_append_cons hslash]
      simp only [String.toList_ofList, List.take_left, List.drop_left]

end Normalising

/-! ### One profile -/

/-- The port that a URL leads to. -/
def effectivePort (t : Target) : Option Nat :=
  t.port.or (knownDefault t.scheme)

/-- Two URLs lead to one host, to one port up to the default ports, to one path up to a slash at the
end, and ask for the same. -/
structure SameProfile (t t' : Target) : Prop where
  host : t.host = t'.host
  port : effectivePort t = effectivePort t' ∨
    (effectivePort t ∈ [some 443, some 80] ∧ effectivePort t' ∈ [some 443, some 80])
  path : t.path = t'.path ∨ t'.path = t.path ++ "/" ∨ t.path = t'.path ++ "/"
  query : t.query = t'.query

/-- Two URLs differ at most in their schemes, the letter case of their schemes and hosts, the
default ports of their schemes, one slash at the end of their paths and their fragments. -/
structure Variants (u v : HttpUrl) : Prop where
  userinfo : u.userinfo = v.userinfo
  host : u.host.map Char.toLower = v.host.map Char.toLower
  port : u.port = v.port ∨ (HasDefaultPort u ∧ HasDefaultPort v)
  path : u.path = v.path ∨ AddsSlash u.path v.path ∨ AddsSlash v.path u.path
  query : u.query = v.query

section Profiles

variable {u v : HttpUrl} {parseHost : List Char → Option String} {t t' : Target}

/-- Of a port that is left, the rest of the authority is told apart. -/
theorem authority_parts (u : HttpUrl) {port : List Char} (hport : port = [] ∨ port = u.port) :
  ((u.userinfo ++ u.host).map Char.toLower ++ port.map Char.toLower).rtakeWhile (· != '@') =
      u.host.map Char.toLower ++ port.map Char.toLower ∧
    beforePort false (u.host.map Char.toLower ++ port.map Char.toLower) = u.host.map Char.toLower
  := by
  have hwhole : beforePort false (u.host ++ u.port) = u.host := by
    rw [← u.hostPort_eq]
    rfl
  have hbefore : beforePort false (u.host ++ port) = u.host := by
    obtain rfl | rfl := hport
    · rw [List.append_nil]
      exact beforePort_of_append hwhole
    · exact hwhole
  have hmem : ∀ c ∈ u.host ++ port, (c != '@') = true := by
    intro c hc
    apply u.not_at_of_mem_hostPort
    rw [u.hostPort_eq]
    obtain rfl | rfl := hport
    · rw [List.append_nil] at hc
      exact List.mem_append_left _ hc
    · exact hc
  have hlower : ∀ c ∈ (u.host ++ port).map Char.toLower, (c != '@') = true := by
    intro c hc
    obtain ⟨d, hd, rfl⟩ := List.mem_map.mp hc
    rw [bne_iff_ne]
    exact fun h => bne_iff_ne.mp (hmem d hd) ((Text.toLower_eq_iff rfl d).mp h)
  rw [← List.map_append, ← List.map_append, beforePort_toLower, hbefore, List.append_assoc,
    List.map_append]
  constructor
  · obtain hnil | ⟨front, hfront⟩ := u.userinfo_cases
    · rw [hnil]
      exact List.rtakeWhile_eq_self_iff.mpr hlower
    · rw [hfront, List.map_append, List.append_assoc]
      exact rtakeWhile_append_cons _ rfl hlower
  · rfl

theorem knownPort_cases (port : List Char) :
  knownPort port = [] ∨ knownPort port = port
  := by
  rw [knownPort]
  split
  · exact .inl rfl
  · exact .inr rfl

/-- The port of a URL that is read is nothing, or a colon and digits. -/
theorem port_cases (hparse : parseHttp parseHost u.text = some t) :
  u.port = [] ∨ IsPort u.port
  := by
  obtain ⟨_, _, _, hportOf, _⟩ := HttpUrl.parseHttp_text hparse
  cases hcons : u.port with
  | nil => exact .inl rfl
  | cons c digits =>
      obtain rfl := u.colon_port c (by rw [hcons]; rfl)
      rw [hcons] at hportOf
      exact .inr ⟨digits, rfl, portOf_digits hportOf⟩

/-- Authorities that come to the same have the same hosts and the same ports that are left. -/
theorem authority_inj (hparse : parseHttp parseHost u.text = some t)
    (hparse' : parseHttp parseHost v.text = some t')
    (h : (u.userinfo ++ u.host).map Char.toLower ++ knownPort u.port =
      (v.userinfo ++ v.host).map Char.toLower ++ knownPort v.port) :
  u.host.map Char.toLower = v.host.map Char.toLower ∧ knownPort u.port = knownPort v.port
  := by
  have hlower (w : HttpUrl) (hw : w.port = [] ∨ IsPort w.port) :
      (knownPort w.port).map Char.toLower = knownPort w.port := by
    obtain hknown | hknown := knownPort_cases w.port
    · rw [hknown]
      rfl
    · rw [hknown]
      obtain hnil | ⟨digits, hdigits, hall⟩ := hw
      · rw [hnil]
        rfl
      · rw [hdigits, List.map_cons, map_toLower_digits hall]
        rfl
  obtain ⟨htake, hbefore⟩ := authority_parts u (knownPort_cases u.port)
  obtain ⟨htake', hbefore'⟩ := authority_parts v (knownPort_cases v.port)
  rw [hlower u (port_cases hparse)] at htake hbefore
  rw [hlower v (port_cases hparse')] at htake' hbefore'
  rw [h, htake'] at htake
  rw [← htake, hbefore'] at hbefore
  rw [hbefore] at htake
  exact ⟨hbefore.symm, (List.append_cancel_left htake).symm⟩

theorem knownDefault_schemeName (u : HttpUrl) :
  knownDefault u.schemeName ∈ [some 443, some 80]
  := by
  have hknown := u.known
  change u.schemeName ∈ _ at hknown
  simp only [List.mem_cons, List.not_mem_nil, or_false] at hknown
  obtain hname | hname := hknown
  · rw [hname]
    decide
  · rw [hname]
    decide

/-- The number of a port. -/
def portNumber (digits : List Char) : Nat :=
  digits.foldl (fun n d => n * 10 + (d.toNat - '0'.toNat)) 0

/-- A port that is written leads to its number; a colon alone leads to the default one. -/
theorem effectivePort_digits (hparse : parseHttp parseHost u.text = some t) {c : Char}
    {digits : List Char} (hport : u.port = c :: digits) :
  (digits = [] ∧ effectivePort t ∈ [some 443, some 80]) ∨
    (digits ≠ [] ∧ effectivePort t = some (portNumber digits))
  := by
  obtain ⟨_, hscheme, _, hportOf, _⟩ := HttpUrl.parseHttp_text hparse
  rw [hport, portOf] at hportOf
  rw [effectivePort, hscheme]
  split at hportOf
  next =>
    simp only at hportOf
    split at hportOf
    next => cases hportOf
    next =>
      split at hportOf
      next hdefault =>
        rw [← Option.some.inj hportOf]
        rw [Bool.or_eq_true, beq_iff_eq, List.isEmpty_iff] at hdefault
        by_cases hempty : digits = []
        · exact .inl ⟨hempty, knownDefault_schemeName u⟩
        · exact .inr ⟨hempty, hdefault.resolve_left hempty⟩
      next hdefault =>
        rw [← Option.some.inj hportOf]
        rw [Bool.or_eq_true, not_or, List.isEmpty_iff] at hdefault
        exact .inr ⟨hdefault.1, rfl⟩
  next => cases hportOf

theorem effectivePort_nil (hparse : parseHttp parseHost u.text = some t) (hport : u.port = []) :
  effectivePort t ∈ [some 443, some 80]
  := by
  obtain ⟨_, hscheme, _, hportOf, _⟩ := HttpUrl.parseHttp_text hparse
  rw [hport, portOf] at hportOf
  rw [effectivePort, hscheme, ← Option.some.inj hportOf]
  exact knownDefault_schemeName u

/-- A port of which nothing is left is a default port. -/
theorem effectivePort_of_known (hparse : parseHttp parseHost u.text = some t)
    (h : knownPort u.port = []) :
  effectivePort t ∈ [some 443, some 80]
  := by
  rw [knownPort] at h
  split at h
  next hcases =>
    obtain h443 | h80 := hcases
    · obtain ⟨hnil, _⟩ | ⟨_, hnumber⟩ := effectivePort_digits hparse h443
      · cases hnil
      · rw [hnumber]
        decide
    · obtain ⟨hnil, _⟩ | ⟨_, hnumber⟩ := effectivePort_digits hparse h80
      · cases hnil
      · rw [hnumber]
        decide
  next => exact effectivePort_nil hparse h

/-- Ports of which the same is left are the same, up to the default ports. -/
theorem port_of_known (hparse : parseHttp parseHost u.text = some t)
    (hparse' : parseHttp parseHost v.text = some t') (h : knownPort u.port = knownPort v.port) :
  effectivePort t = effectivePort t' ∨
    (effectivePort t ∈ [some 443, some 80] ∧ effectivePort t' ∈ [some 443, some 80])
  := by
  cases hknown : knownPort u.port with
  | nil =>
      exact .inr ⟨effectivePort_of_known hparse hknown,
        effectivePort_of_known hparse' (h ▸ hknown)⟩
  | cons c digits =>
      have hsame (w : HttpUrl) (hw : knownPort w.port = c :: digits) : w.port = c :: digits := by
        obtain hnil | hself := knownPort_cases w.port
        · rw [hnil] at hw
          cases hw
        · rw [← hself, hw]
      obtain ⟨hnil, hu⟩ | ⟨hne, hu⟩ := effectivePort_digits hparse (hsame u hknown)
      · obtain ⟨_, hv⟩ | ⟨hne, _⟩ := effectivePort_digits hparse' (hsame v (h ▸ hknown))
        · exact .inr ⟨hu, hv⟩
        · exact absurd hnil hne
      · obtain ⟨hnil, _⟩ | ⟨_, hv⟩ := effectivePort_digits hparse' (hsame v (h ▸ hknown))
        · exact absurd hnil hne
        · exact .inl (hu.trans hv.symm)

/-- In a path and a query the query starts at the first question mark. -/
theorem path_query (u : HttpUrl) :
  (u.path ++ u.query).takeWhile inPath = u.path
  := by
  rw [List.takeWhile_append_of_pos u.inPath]
  cases hquery : u.query with
  | nil => exact List.append_nil _
  | cons c query =>
      obtain rfl := u.asked c (by rw [hquery]; rfl)
      exact List.append_nil _

/-- A slash after a path and a query is after the path if there is no query, and after the query
otherwise. -/
theorem addsSlash_cases (h : AddsSlash (u.path ++ u.query) (v.path ++ v.query)) :
  (u.query = [] ∧ v.query = [] ∧ v.path = u.path ++ ['/']) ∨
    (v.query ≠ [] ∧ EndsInOneSlash v.query)
  := by
  obtain ⟨heq, hlast⟩ := h
  rcases List.eq_nil_or_concat v.query with hnil | ⟨front, c, hconcat⟩
  · left
    rw [hnil, List.append_nil] at heq
    have hquery : u.query = [] := by
      cases hcons : u.query with
      | nil => rfl
      | cons c query =>
          obtain rfl := u.asked c (by rw [hcons]; rfl)
          have hmem : '?' ∈ v.path := by
            rw [heq, hcons]
            simp
          have hin := v.inPath '?' hmem
          cases hin
    rw [hquery, List.append_nil] at heq
    exact ⟨hquery, hnil, heq⟩
  · right
    rw [List.concat_eq_append] at hconcat
    have hne : v.query ≠ [] := by
      rw [hconcat]
      exact List.append_ne_nil_of_right_ne_nil _ (List.cons_ne_nil _ _)
    rw [hconcat, ← List.append_assoc] at heq
    obtain ⟨hfront, hc⟩ := List.append_inj' heq rfl
    obtain rfl := (List.cons.inj hc).1
    refine ⟨hne, front, hconcat, ?_⟩
    intro hslash
    apply hlast
    have hfrontNe : front ≠ [] := by
      rintro rfl
      cases hslash
    rw [← hfront, List.getLast?_append_of_ne_nil _ hfrontNe, hslash]

/-- What is left of the path and the query starts with the first slash. -/
theorem split_at_slash (hparse : parseHttp parseHost u.text = some t)
    (hparse' : parseHttp parseHost v.text = some t') (hu : IsPlainLink u) (hv : IsPlainLink v)
    (h : (u.userinfo ++ u.host).map Char.toLower ++ knownPort u.port ++
        stripped ['/'] (u.path ++ u.query) =
      (v.userinfo ++ v.host).map Char.toLower ++ knownPort v.port ++
        stripped ['/'] (v.path ++ v.query)) :
  (u.userinfo ++ u.host).map Char.toLower ++ knownPort u.port =
      (v.userinfo ++ v.host).map Char.toLower ++ knownPort v.port ∧
    stripped ['/'] (u.path ++ u.query) = stripped ['/'] (v.path ++ v.query)
  := by
  have hclear (w : HttpUrl) (hw : w.port = [] ∨ IsPort w.port) :
      ∀ c ∈ (w.userinfo ++ w.host).map Char.toLower ++ knownPort w.port, (c != '/') = true := by
    intro c hc
    rw [bne_iff_ne]
    obtain hc | hc := List.mem_append.mp hc
    · obtain ⟨d, hd, rfl⟩ := List.mem_map.mp hc
      intro hslash
      obtain rfl := (Text.toLower_eq_iff rfl d).mp hslash
      have hmem : '/' ∈ w.authority := by
        rw [w.authority_eq, w.hostPort_eq, ← List.append_assoc]
        exact List.mem_append_left _ hd
      have hwithin := w.within '/' hmem
      cases hwithin
    · obtain hnil | hself := knownPort_cases w.port
      · rw [hnil] at hc
        cases hc
      · rw [hself] at hc
        obtain hnil | ⟨digits, hcons, hdigits⟩ := hw
        · rw [hnil] at hc
          cases hc
        · rw [hcons] at hc
          obtain rfl | hc := List.mem_cons.mp hc
          · decide
          · exact ne_of_isDigit (hdigits c hc) rfl
  have hstart (w : HttpUrl) (hw : IsPlainLink w) :
      ∀ c ∈ (stripped ['/'] (w.path ++ w.query)).head?, ¬ (c != '/') = true := by
    intro c hc
    have hprefix : stripped ['/'] (w.path ++ w.query) <+: w.path ++ w.query := by
      rw [stripped]
      split
      · exact List.take_prefix _ _
      · exact List.prefix_rfl
    obtain ⟨rest, hrest⟩ := hprefix
    have hhead : c ∈ (w.path ++ w.query).head? := by
      rw [← hrest]
      cases hcons : stripped ['/'] (w.path ++ w.query) with
      | nil =>
          rw [hcons] at hc
          cases hc
      | cons d l =>
          rw [hcons] at hc
          exact hc
    cases hpath : w.path with
    | nil =>
        rw [hpath, (hw.rooted hpath).1] at hhead
        cases hhead
    | cons d path =>
        rw [hpath] at hhead
        obtain rfl := Option.some.inj hhead
        rw [w.rooted d (by rw [hpath]; rfl)]
        decide
  have hcut (front back : List Char) (hfront : ∀ c ∈ front, (c != '/') = true)
      (hback : ∀ c ∈ back.head?, ¬ (c != '/') = true) :
      (front ++ back).takeWhile (· != '/') = front := by
    rw [List.takeWhile_append_of_pos hfront]
    cases back with
    | nil => exact List.append_nil _
    | cons c back =>
        rw [@List.takeWhile_cons_of_neg _ (· != '/') _ _ (hback c rfl), List.append_nil]
  have hsame := congrArg (List.takeWhile (· != '/')) h
  rw [hcut _ _ (hclear u (port_cases hparse)) (hstart u hu),
    hcut _ _ (hclear v (port_cases hparse')) (hstart v hv)] at hsame
  rw [hsame] at h
  exact ⟨hsame, List.append_cancel_left h⟩

/-- Plain links that come to the same lead to one profile. -/
theorem sameProfile_of_eq (hreads : ReadsHosts parseHost)
    (hparse : parseHttp parseHost u.text = some t) (hparse' : parseHttp parseHost v.text = some t')
    (hu : IsPlainLink u) (hv : IsPlainLink v)
    (h : normaliseBackLink u.text = normaliseBackLink v.text) :
  SameProfile t t'
  := by
  have hlists := congrArg String.toList h
  rw [toList_normaliseBackLink hreads hparse hu, toList_normaliseBackLink hreads hparse' hv]
    at hlists
  obtain ⟨_, _, hhost, _, hpath, hquery⟩ := HttpUrl.parseHttp_text hparse
  obtain ⟨_, _, hhost', _, hpath', hquery'⟩ := HttpUrl.parseHttp_text hparse'
  obtain ⟨hauthority, htail⟩ := split_at_slash hparse hparse' hu hv hlists
  obtain ⟨hhosts, hports⟩ := authority_inj hparse hparse' hauthority
  have hslash (w w' : HttpUrl) (hw : w'.path = w.path ++ ['/']) :
      String.ofList (pathText (resolve [] (segments w'.path))) =
          String.ofList (pathText (resolve [] (segments w.path))) ∨
        String.ofList (pathText (resolve [] (segments w'.path))) =
          String.ofList (pathText (resolve [] (segments w.path))) ++ "/" := by
    rw [hw]
    obtain hsame | hadded := path_slash w.rooted w.inPath
    · exact .inl (congrArg _ hsame)
    · right
      rw [hadded, String.ofList_append]
  constructor
  · apply Option.some.inj
    rw [← hhost, ← hhost', hreads.ignoresCase _ _ hhosts]
  · exact port_of_known hparse hparse' hports
  · rw [hpath, hpath']
    obtain hsame | hadds | hadds := slash_of_stripped htail
    · left
      have hpaths := congrArg (List.takeWhile Url.inPath) hsame
      rw [path_query, path_query] at hpaths
      rw [hpaths]
    · obtain ⟨_, _, hadded⟩ | ⟨hne, hends⟩ := addsSlash_cases hadds
      · obtain hsame | hadded := hslash u v hadded
        · exact .inl hsame.symm
        · exact .inr (.inl hadded)
      · exact absurd hends (hv.slashes hne).2
    · obtain ⟨_, _, hadded⟩ | ⟨hne, hends⟩ := addsSlash_cases hadds
      · obtain hsame | hadded := hslash v u hadded
        · exact .inl hsame
        · exact .inr (.inr hadded)
      · exact absurd hends (hu.slashes hne).2
  · rw [hquery, hquery']
    obtain hsame | hadds | hadds := slash_of_stripped htail
    · have hpaths := congrArg (List.takeWhile Url.inPath) hsame
      rw [path_query, path_query] at hpaths
      rw [hpaths] at hsame
      rw [List.append_cancel_left hsame]
    · obtain ⟨hnil, hnil', _⟩ | ⟨hne, hends⟩ := addsSlash_cases hadds
      · rw [hnil, hnil']
      · exact absurd hends (hv.slashes hne).2
    · obtain ⟨hnil, hnil', _⟩ | ⟨hne, hends⟩ := addsSlash_cases hadds
      · rw [hnil, hnil']
      · exact absurd hends (hu.slashes hne).2

/-- Variants that are written plainly come to the same. -/
theorem eq_of_variants (hreads : ReadsHosts parseHost)
    (hparse : parseHttp parseHost u.text = some t) (hparse' : parseHttp parseHost v.text = some t')
    (hu : IsPlainLink u) (hv : IsPlainLink v) (h : Variants u v) :
  normaliseBackLink u.text = normaliseBackLink v.text
  := by
  have hports : knownPort u.port = knownPort v.port := by
    obtain hsame | ⟨hdefault, hdefault'⟩ := h.port
    · rw [hsame]
    · rw [hu.port hdefault, hv.port hdefault']
  have htails : stripped ['/'] (u.path ++ u.query) = stripped ['/'] (v.path ++ v.query) := by
    rw [h.query]
    by_cases hnone : v.query = []
    · rw [hnone, List.append_nil, List.append_nil]
      obtain hsame | hadds | hadds := h.path
      · rw [hsame]
      · exact stripped_addsSlash hadds
      · exact (stripped_addsSlash hadds).symm
    · have hnone' : u.query ≠ [] := by
        rw [h.query]
        exact hnone
      obtain hsame | hadds | hadds := h.path
      · rw [hsame]
      · exact absurd ⟨_, hadds⟩ (hv.slashes hnone).1
      · exact absurd ⟨_, hadds⟩ (hu.slashes hnone').1
  rw [← String.toList_inj, toList_normaliseBackLink hreads hparse hu,
    toList_normaliseBackLink hreads hparse' hv, List.map_append, List.map_append, h.userinfo,
    h.host, hports, htails]

end Profiles

/-- Links that are written plainly come to the same only if they lead to one profile, and whenever
they differ in their schemes, the letter case of their hosts, their default ports, one slash at the
end and their fragments alone. -/
theorem backLink_names_profile (parseHost : List Char → Option String)
    (hreads : ReadsHosts parseHost) (u v : HttpUrl) (t t' : Target)
    (hparse : parseHttp parseHost u.text = some t) (hparse' : parseHttp parseHost v.text = some t')
    (hu : IsPlainLink u) (hv : IsPlainLink v) :
  (normaliseBackLink u.text = normaliseBackLink v.text → SameProfile t t') ∧
  (Variants u v → normaliseBackLink u.text = normaliseBackLink v.text)
  := by
  constructor
  · exact sameProfile_of_eq hreads hparse hparse' hu hv
  · exact eq_of_variants hreads hparse hparse' hu hv

/-- A host that is a name, in lower case. -/
def readName (host : List Char) : Option String :=
  if ':' ∈ host then none else some (String.ofList (host.map Char.toLower))

theorem readsHosts_readName :
  ReadsHosts readName
  := by
  constructor
  · intro host host' h
    have hcolon (l : List Char) : ':' ∈ l ↔ ':' ∈ l.map Char.toLower := by
      rw [List.mem_map]
      constructor
      · intro hmem
        exact ⟨':', hmem, rfl⟩
      · rintro ⟨c, hc, hlower⟩
        rw [Text.toLower_eq_iff rfl] at hlower
        exact hlower ▸ hc
    rw [readName, readName, h]
    simp only [hcolon host, hcolon host', h]
  · intro host hcolon hsome
    rw [readName, if_pos hcolon] at hsome
    cases hsome

/-- The link to a profile, with a fragment. -/
def shouted : HttpUrl where
  scheme := "HTTP".toList
  authority := "Noombat.Example:80".toList
  path := "/@alice/".toList
  query := []
  fragment := "#me".toList
  known := by decide
  alphabetic := by decide
  nonempty := by decide
  within := by decide
  rooted := by decide
  inPath := by decide
  asked := by decide
  noFragment := by decide
  marked := by decide
  significant := by decide

/-- The link to the same profile as it is. -/
def spoken : HttpUrl where
  scheme := "https".toList
  authority := "noombat.example".toList
  path := "/@alice".toList
  query := []
  fragment := []
  known := by decide
  alphabetic := by decide
  nonempty := by decide
  within := by decide
  rooted := by decide
  inPath := by decide
  asked := by decide
  noFragment := by decide
  marked := by decide
  significant := by decide

theorem isPlainLink_shouted :
  IsPlainLink shouted
  := by
  constructor
  · intro h
    cases h
  · intro _
    decide
  · intro h
    cases h
  · intro h
    exact absurd rfl h

theorem isPlainLink_spoken :
  IsPlainLink spoken
  := by
  constructor
  · intro h
    cases h
  · intro _
    decide
  · intro _
    decide
  · intro h
    exact absurd rfl h

theorem backLink_names_alice :
  normaliseBackLink shouted.text = normaliseBackLink spoken.text ∧
  ∃ t t', parseHttp readName shouted.text = some t ∧ parseHttp readName spoken.text = some t' ∧
    SameProfile t t'
  := by
  have hparse : parseHttp readName shouted.text =
      some ⟨"http", "noombat.example", none, "/@alice/", none⟩ := by decide +kernel
  have hparse' : parseHttp readName spoken.text =
      some ⟨"https", "noombat.example", none, "/@alice", none⟩ := by decide +kernel
  obtain ⟨hone, hsame⟩ := backLink_names_profile readName readsHosts_readName shouted spoken _ _
    hparse hparse' isPlainLink_shouted isPlainLink_spoken
  have hvariants : Variants shouted spoken := by
    constructor
    · rfl
    · decide
    · exact .inr ⟨by decide, by decide⟩
    · exact .inr (.inr ⟨rfl, by decide⟩)
    · rfl
  exact ⟨hsame hvariants, _, _, hparse, hparse', hone (hsame hvariants)⟩

/-- A query without a path is read in lower case, so that it is taken for another; a fragment
without a path is kept, so that the link is taken for another; and of a query a slash at the end is
lost. -/
theorem backLink_names_another :
  (normaliseBackLink "https://h.ex?Q=1" = normaliseBackLink "https://h.ex?q=1" ∧
    parseHttp readName "https://h.ex?Q=1" = some ⟨"https", "h.ex", none, "/", some "Q=1"⟩ ∧
    parseHttp readName "https://h.ex?q=1" = some ⟨"https", "h.ex", none, "/", some "q=1"⟩) ∧
  (normaliseBackLink "https://h.ex#a" ≠ normaliseBackLink "https://h.ex" ∧
    parseHttp readName "https://h.ex#a" = parseHttp readName "https://h.ex") ∧
  (normaliseBackLink "https://h.ex/p?q/" = normaliseBackLink "https://h.ex/p?q" ∧
    parseHttp readName "https://h.ex/p?q/" = some ⟨"https", "h.ex", none, "/p", some "q/"⟩ ∧
    parseHttp readName "https://h.ex/p?q" = some ⟨"https", "h.ex", none, "/p", some "q"⟩)
  := by
  refine ⟨⟨?_, ?_, ?_⟩, ⟨?_, ?_⟩, ?_, ?_, ?_⟩
  all_goals decide +kernel

end Postings
