import Noombat.UrlText
import Noombat.Federation.Types

/-!
# The outbound client

The client that every fetch of a remote document goes through.  It follows redirects, at most
two of them, and checks where each of them leads; where the first request goes is checked by
those who make it.  The servers that are asked answer as they like, one after the other.
-/

/-- How an error is displayed. -/
def Federation.NoombatError.display : Federation.NoombatError → String
  | actorNotFound actor => s!"actor not found: {actor}"
  | actorAlreadyExists actor => s!"actor already exists: {actor}"
  | database message => s!"database error: {message}"
  | serialisation message => s!"serialisation error: {message}"
  | federation message => s!"federation error: {message}"
  | signatureVerification => "HTTP signature verification failed"
  | notFound entity id => s!"resource not found: {entity} / {id}"
  | forbidden => "forbidden"
  | moveRejected message => s!"move rejected: {message}"
  | badRequest message => s!"bad request: {message}"
  | internal message => s!"internal error: {message}"
  | serviceUnavailable message => s!"service unavailable: {message}"
  | quotaExceeded message => s!"quota exceeded: {message}"

namespace Federation.Client

/-- What is not part of this program: the parser of URLs, how the target of a redirect is
resolved, and which hosts are literals of private or reserved addresses. -/
structure UrlLibrary where
  parse : String → Except String Url
  join : Url → String → Option Url
  privateAddress : String → Option String

/-- The number of redirects that are followed. -/
def MAX_REDIRECTS : Nat :=
  2

/-- What a server answers to a request, if it does. -/
inductive Answer where
  | failed (message : String)
  | response (status : Nat) (location : Option String) (body : Option String)
  deriving DecidableEq

/-- A response, and the URL that it was served from. -/
structure Page where
  url : Url
  status : Nat
  /-- Absent if it cannot be read. -/
  body : Option String
  deriving DecidableEq

variable (lib : UrlLibrary) (allowLocalTargets : Bool)

/-- Refuse a URL that must not be fetched. -/
def checkUrl (url : Url) : Except NoombatError Unit :=
  if ¬ (url.scheme = "https" ∨ url.scheme = "http" ∧ allowLocalTargets = true) then
    .error (.badRequest
      s!"refusing a federation fetch over {url.scheme}: only https is permitted")
  else
    match url.host.filter (· ≠ "") with
    | none => .error (.badRequest "refusing a federation fetch to a URL with no host")
    | some host =>
        let bare := Text.trimEndMatches ']' (Text.trimStartMatches '[' host)
        match (lib.privateAddress bare).filter fun _ => !allowLocalTargets with
        | some ip => .error (.badRequest
            s!"refusing a federation fetch to the private or reserved address {ip}")
        | none =>
            if url.username ≠ "" ∨ url.password.isSome then
              .error (.badRequest
                "refusing a federation fetch to a URL carrying credentials")
            else .ok ()

/-- Whether to follow a redirect to `next`, when `visited` URLs have been requested. -/
def redirectDecision (visited : Nat) (next : Url) : Except String Unit :=
  if visited > MAX_REDIRECTS then .error s!"federation fetch exceeded {MAX_REDIRECTS} redirects"
  else (checkUrl lib allowLocalTargets next).mapError (·.display)

/-- Where a response redirects a request for a URL, if it does. -/
def redirectTarget (url : Url) (status : Nat) (location : Option String) : Option Url :=
  if status ∈ [301, 302, 303, 307, 308] then location.bind (lib.join url) else none

/-- The page that is served for a URL, when `visited` URLs have been requested, itself
included. -/
def send : Nat → Url → List Answer → Except String Page
  | _, _, [] => .error "timed out"
  | _, _, .failed message :: _ => .error message
  | visited, url, .response status location body :: answers =>
      match redirectTarget lib url status location with
      | none => .ok ⟨url, status, body⟩
      | some next =>
          match redirectDecision lib allowLocalTargets visited next with
          | .error e => .error e
          | .ok () => send (visited + 1) next answers

/-- A request for what a string names. -/
def get (url : String) (answers : List Answer) : Except String Page :=
  match lib.parse url with
  | .error _ => .error "builder error"
  | .ok u =>
      if u.host = none then .error "builder error"
      else if u.scheme ∉ ["http", "https"] then .error "URL scheme is not allowed"
      else send lib allowLocalTargets 1 u answers

/-- Where the answers to requests lead, from a URL on. -/
def redirected : Url → List Answer → Url
  | url, .response status location _ :: answers =>
      match redirectTarget lib url status location with
      | none => url
      | some next => redirected next answers
  | url, _ => url

variable {lib allowLocalTargets}

/-- A page is served from where the redirects lead. -/
theorem url_of_send {answers : List Answer} :
    ∀ {visited : Nat} {url : Url} {page : Page},
      send lib allowLocalTargets visited url answers = .ok page →
        page.url = redirected lib url answers := by
  induction answers with
  | nil =>
      intro _ _ _ h
      cases h
  | cons answer answers ih =>
      intro visited url page h
      cases answer with
      | failed message => cases h
      | response status location body =>
          rw [send] at h
          rw [redirected]
          cases htarget : redirectTarget lib url status location with
          | none =>
              rw [htarget] at h
              cases h
              rfl
          | some next =>
              rw [htarget] at h
              simp only at h ⊢
              cases hdecision : redirectDecision lib allowLocalTargets visited next with
              | error e =>
                  rw [hdecision] at h
                  cases h
              | ok u =>
                  rw [hdecision] at h
                  apply ih h

/-- A page that is served was requested with a URL over HTTP. -/
theorem of_get {url : String} {answers : List Answer} {page : Page}
    (h : get lib allowLocalTargets url answers = .ok page) :
  ∃ u, lib.parse url = .ok u ∧ u.scheme ∈ ["http", "https"] ∧
    page.url = redirected lib u answers
  := by
  unfold get at h
  split at h
  · cases h
  · next u hparse =>
      split at h
      · cases h
      · split at h
        · cases h
        · next hscheme =>
            exact ⟨u, hparse, not_not.mp hscheme, url_of_send h⟩

end Federation.Client
