import Noombat.Text

/-!
# URLs

A parsed URL, by its components.  The scheme and the host are in lower case and the port is
absent where it is the default of the scheme, as the parser leaves them.  The serialisation
of a URL determines its components, so that two URLs have the same serialisation just when
they are equal.
-/

open Text

structure Url where
  scheme : String
  username : String
  password : Option String
  host : Option String
  port : Option Nat
  path : String
  query : Option String
  fragment : Option String
  deriving DecidableEq, Repr

namespace Url

/-- The port a scheme has when none is given. -/
def knownDefault : String → Option Nat
  | "http" => some 80
  | "ws" => some 80
  | "https" => some 443
  | "wss" => some 443
  | "ftp" => some 21
  | _ => none

def portOrKnownDefault (u : Url) : Option Nat :=
  u.port.or (knownDefault u.scheme)

/-- Whether a URL cannot have an empty path, because its scheme is a special one. -/
def isSpecial (u : Url) : Bool :=
  u.scheme ∈ ["http", "https", "ws", "wss", "ftp", "file"]

/-- Whether a URL is one, such as `mailto:x`, whose path has no structure: it has no host
and its path does not start with a slash. -/
def cannotBeABase (u : Url) : Bool :=
  u.host.isNone && !startsWith u.path "/"

/-- The authority of a URL, with the slashes before it. -/
def authority (u : Url) : String :=
  match u.host with
  | none => ""
  | some host =>
      "//" ++
        (if u.username = "" ∧ u.password = none then ""
          else u.username ++ (u.password.elim "" (":" ++ ·)) ++ "@") ++
        host ++ u.port.elim "" (fun n => ":" ++ toString n)

def asStr (u : Url) : String :=
  u.scheme ++ ":" ++ u.authority ++ u.path ++
    u.query.elim "" ("?" ++ ·) ++ u.fragment.elim "" ("#" ++ ·)

/-- The URL without its fragment. -/
def withoutFragment (u : Url) : Url :=
  { u with fragment := none }

/-- The URL with another path, one that is encoded already.  The path of a special URL
starts with a slash, a path without structure does not. -/
def setPath (path : String) (u : Url) : Url :=
  { u with
    path :=
      match stripPrefix "/" path with
      | some rest => if u.cannotBeABase then "%2F" ++ rest else path
      | none =>
          if u.isSpecial || (path != "" && !u.cannotBeABase) then "/" ++ path else path }

/-- Whether two URLs share a scheme, host and effective port. -/
def sameOrigin (a b : Url) : Bool :=
  a.scheme == b.scheme && a.host == b.host && a.portOrKnownDefault == b.portOrKnownDefault

/-- A URL as it is compared with others: without its fragment, and without slashes at the
end of its path. -/
def normaliseActorUri (u : Url) : Url :=
  let u := u.withoutFragment
  u.setPath (trimEndMatches '/' u.path)

/-- The parser of URLs on those of the form `https://host/path`, with a fragment or not. -/
def parsePlain (s : String) : Except String Url :=
  match stripPrefix "https://" s with
  | none => .error "relative URL without a base"
  | some rest =>
      let (body, fragment) := match splitOnce '#' rest with
        | some (body, fragment) => (body, some fragment)
        | none => (rest, none)
      let host := body.toList.takeWhile (· != '/')
      let path := body.toList.dropWhile (· != '/')
      if host.isEmpty then .error "empty host"
      else .ok
        { scheme := "https"
          username := ""
          password := none
          host := some (toAsciiLowercase (String.ofList host))
          port := none
          path := if path.isEmpty then "/" else String.ofList path
          query := none
          fragment }

/-! ### Origins -/

/-- A scheme, a host and a port. -/
abbrev Origin : Type :=
  String × Option String × Option Nat

/-- The origin of a URL: its scheme, its host and its effective port. -/
def origin (u : Url) : Origin :=
  (u.scheme, u.host, u.portOrKnownDefault)

theorem sameOrigin_iff (a b : Url) :
  a.sameOrigin b ↔ a.origin = b.origin
  := by
  simp [sameOrigin, origin, and_assoc]

@[simp]
theorem origin_setPath (path : String) (u : Url) :
  (u.setPath path).origin = u.origin
  := rfl

@[simp]
theorem origin_normaliseActorUri (u : Url) :
  u.normaliseActorUri.origin = u.origin
  := by
  unfold normaliseActorUri
  rw [origin_setPath]
  rfl

end Url
