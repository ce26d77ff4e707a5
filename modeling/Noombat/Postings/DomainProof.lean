import Noombat.Postings.Verification

/-!
# Which domain a page proves

The registrable domain of a link is read from the string that was stored, by its separators.
The page is fetched from where the parser of URLs takes the string to lead, and from there where
the answers of servers redirect it.  Both are one domain if the string is read alike and no answer
leads away; a link is verified also if they are not.
-/

namespace Postings

open Federation (Uuid DateTime NoombatError)
open Federation.Client (Answer Page)

/-! ### The host between separators -/

/-- A scheme is cut off at the separator after it. -/
theorem cutAt_of_not_mem {scheme rest : List Char} (h : ':' ∉ scheme) :
  Text.cutAt "://".toList (scheme ++ "://".toList ++ rest) = some (scheme, rest)
  := by
  induction scheme with
  | nil => rfl
  | cons c scheme ih =>
      have hc : c ≠ ':' := fun hc => h (hc ▸ List.mem_cons_self)
      have hnot : "://".toList.isPrefixOf (c :: (scheme ++ "://".toList ++ rest)) = false := by
        change (':' == c && _) = false
        rw [beq_false_of_ne hc.symm, Bool.false_and]
      rw [List.cons_append, List.cons_append, Text.cutAt, hnot,
        ih fun hmem => h (List.mem_cons_of_mem _ hmem)]
      rfl

/-! ### Two readings -/

section Readings

variable (lib : Library) (toHost : String → Option String)

/-- The host that the parser makes of the text of a URL. -/
def parsedHost (url : String) : Option String :=
  (Url.hostText url).bind toHost

/-- The host of a stored string is in the same registrable domain, whether it is read between
the separators or by the parser. -/
def ReadAlike (url : String) : Prop :=
  (hostOfUrl url).bind (registrableDomain lib) =
    (parsedHost toHost url).bind (registrableDomain lib)

/-- Where the answers lead is in the registrable domain of the host that is asked first. -/
def StaysInDomain (url : String) (answers : List Answer) : Prop :=
  ∃ u, lib.parse url = .ok u ∧
    ((Federation.Client.redirected lib.toUrlLibrary u answers).host).bind (registrableDomain lib) =
      u.host.bind (registrableDomain lib)

/-- The answers lead to the registrable domain of the host that is read between the
separators. -/
def LeadsBack (url : String) (answers : List Answer) : Prop :=
  ∃ u, lib.parse url = .ok u ∧
    ((Federation.Client.redirected lib.toUrlLibrary u answers).host).bind (registrableDomain lib) =
      (hostOfUrl url).bind (registrableDomain lib)

/-- The host that has served the page for a URL. -/
def servingHost (allowLocalTargets : Bool) (url : String) (answers : List Answer) :
    Option String :=
  match Federation.Client.get lib.toUrlLibrary allowLocalTargets url answers with
  | .ok page => page.url.host
  | .error _ => none

variable {lib toHost}

/-! ### Links that are verified -/

variable {allowLocalTargets : Bool}

/-- A link is verified with a page that is served. -/
theorem page_of_verified {link : VerifiedLink} {profileUrls : List String} {db : Db}
    {script : Program.Script (postingWorld lib allowLocalTargets)}
    (h : (Program.run _ script (verifyLink lib link profileUrls).run db).1 = .ok true) :
  ∃ page, Federation.Client.get lib.toUrlLibrary allowLocalTargets link.url
    (script 0 (.get link.url)) = .ok page
  := by
  have hlinks : linksBack lib profileUrls (Federation.Client.get lib.toUrlLibrary
      allowLocalTargets link.url (script 0 (.get link.url))) = true := by
    change (Program.runFrom _ script 1 (Program.call (PostingRequest.sql _) _) db).1 = _ at h
    rw [Program.runFrom] at h
    cases hmark : script 1 (.sql (.markChecked link.id (linksBack lib profileUrls
        (Federation.Client.get lib.toUrlLibrary allowLocalTargets link.url
          (script 0 (.get link.url)))))) with
    | error e =>
        rw [hmark] at h
        cases h
    | ok now =>
        rw [hmark] at h
        exact Except.ok.inj h
  cases hpage : Federation.Client.get lib.toUrlLibrary allowLocalTargets link.url
      (script 0 (.get link.url)) with
  | ok page => exact ⟨page, rfl⟩
  | error e =>
      rw [hpage] at hlinks
      cases hlinks

end Readings

/-! ### Pages that are served elsewhere -/

/-- A host of letters, digits, hyphens and dots is kept, in lower case. -/
def asciiHost (host : String) : Option String :=
  if host ≠ "" ∧ host.toList.all (fun c => c.isAlphanum || c == '-' || c == '.') = true then
    some (Text.toAsciiLowercase host)
  else none

/-- The path of a URL of which nothing need be encoded, without its query and fragment. -/
def plainPath (url : String) : String :=
  match Url.splitScheme (Url.significant url.toList) with
  | none => ""
  | some (_, rest) =>
      let path := ((rest.dropWhile Url.isSlash).dropWhile (!Url.endsAuthority ·)).takeWhile
        fun c => c != '?' && c != '#'
      if path.isEmpty then "/"
      else String.ofList (path.map fun c => if c = '\\' then '/' else c)

/-- The parser of URLs, on those without credentials, ports, queries and fragments. -/
def parsePlainUrl (url : String) : Except String Url :=
  match Url.splitScheme (Url.significant url.toList), parsedHost asciiHost url with
  | some (scheme, _), some host =>
      .ok
        { scheme := String.ofList scheme
          username := ""
          password := none
          host := some host
          port := none
          path := plainPath url
          query := none
          fragment := none }
  | _, _ => .error "relative URL without a base"

/-- The libraries on plain inputs: URLs that are absolute and hosts whose public suffix is one
label, pages with one hyperlink, and text without markup. -/
def Library.plain : Library where
  parse := parsePlainUrl
  join _ location := (parsePlainUrl location).toOption
  privateAddress _ := none
  registrable host :=
    let labels := Text.split '.' host
    if 2 ≤ labels.length then some (".".intercalate (labels.drop (labels.length - 2))) else none
  relMeHrefs html :=
    match Text.splitOnceStr "rel=\"me\" href=\"" html with
    | some (_, rest) => [String.ofList (rest.toList.takeWhile (· != '"'))]
    | none => []
  render := .ok
  toRfc3339 := toString

theorem host_of_parsePlainUrl (url : String) (u : Url)
    (h : Library.plain.parse url = .ok u) (_ : u.scheme ∈ ["http", "https"]) :
  u.host = parsedHost asciiHost url
  := by
  change parsePlainUrl url = _ at h
  unfold parsePlainUrl at h
  split at h
  · next host _ hhost =>
      cases h
      exact hhost.symm
  · cases h

/-- A link of Al that was stored. -/
def alsLink (url : String) : VerifiedLink :=
  ⟨7, 1, url, none, 0⟩

/-- The servers answer as given, and no statement fails. -/
def answering (answers : List Answer) : Program.Script (postingWorld .plain false)
  | _, .sql _ => .ok 0
  | _, .staleLinks _ => .ok (0, [])
  | _, .newUuid => ()
  | _, .now => (0 : DateTime)
  | _, .get _ => answers

/-- A page that links back to Al. -/
def alsPage : String :=
  "<a rel=\"me\" href=\"https://h.ex/@al\">Al</a>"

def emptyDb : Db :=
  ⟨0, .empty, [], .empty, .empty, .empty, []⟩

/-- How the verification of a link of Al ends. -/
def verifying (url : String) (answers : List Answer) : Except NoombatError Bool :=
  (Program.run _ (answering answers)
    (verifyLink .plain (alsLink url) (profileUrls "h.ex" "al")).run emptyDb).1

/-- The registrable domain of the host that has served the page of a link of Al. -/
def servingDomain (url : String) (answers : List Answer) : Option String :=
  (servingHost .plain false url answers).bind (registrableDomain .plain)

/-- A page that links back to Al is served in the end. -/
def servesAlsPage (url : String) (answers : List Answer) : Bool :=
  match Federation.Client.get Library.plain.toUrlLibrary false url answers with
  | .ok page => page.status == 200 && page.body == some alsPage
  | .error _ => false

theorem verifying_of_servesAlsPage {url : String} {answers : List Answer}
    (h : servesAlsPage url answers = true) :
  verifying url answers = .ok true
  := by
  unfold servesAlsPage at h
  split at h
  · next page hpage =>
      simp only [Bool.and_eq_true, beq_iff_eq] at h
      obtain ⟨hstatus, hbody⟩ := h
      have hhref : "https://h.ex/@al" ∈ Library.plain.relMeHrefs alsPage := by decide +kernel
      have hlinks : linksBack .plain (profileUrls "h.ex" "al")
          (Federation.Client.get Library.plain.toUrlLibrary false url answers) = true := by
        rw [hpage, linksBack, hstatus, hbody, Option.getD_some,
          checkRelMe_of_mem .plain hhref (by decide +kernel)]
        rfl
      change Except.ok (linksBack .plain (profileUrls "h.ex" "al")
        (Federation.Client.get Library.plain.toUrlLibrary false url answers)) = _
      rw [hlinks]
  · cases h

/-- A backslash hides the host from the separators. -/
def hidden : String :=
  "https://mal.test\\@acme.example/"

/-- A page of an honest host that redirects elsewhere. -/
def redirecting : List Answer :=
  [.response 302 (some "https://mal.test/") none, .response 200 none (some alsPage)]

end Postings
