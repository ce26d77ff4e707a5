import Noombat.Filtermail.Wire

/-!
# The content checks of the filter

What the filter decides about a message once its headers can be read.  The MIME parser is
not part of the program; it is the parameter `parseMail`.
-/

namespace Filtermail

open Text

/-- Which side of the relay a session arrived on. -/
inductive Mode where
  /-- Submission from one of this instance's own users. -/
  | outgoing
  /-- A message from a peer relay. -/
  | incoming
  deriving DecidableEq, Repr

/-- A parsed MIME part: its headers, keys with decoded values, its decoded body if the
transfer encoding could be undone, and its subparts. -/
structure ParsedMail where
  headers : List (String × String)
  bodyRaw : Option Bytes
  subparts : List ParsedMail

/-- The value of the first header with the given name. -/
def ParsedMail.header (part : ParsedMail) (name : String) : Option String :=
  (part.headers.find? fun h => eqIgnoreAsciiCase h.1 name).map Prod.snd

/-! ### Whether a part is encrypted -/

/-- Whether `needle` occurs at the start of a line of the body; `start` says whether the
body itself starts a line. -/
def atLineStart (needle : Bytes) (start : Bool) (body : Bytes) : Bool :=
  (start && needle.isPrefixOf body) ||
    match body with
    | [] => false
    | b :: rest => atLineStart needle (b == 0x0A) rest

/-- Whether an armoured PGP block starts and ends at a line boundary. -/
def hasPgpArmour (body : Bytes) : Bool :=
  atLineStart (asBytes "-----BEGIN PGP MESSAGE-----") true body &&
    atLineStart (asBytes "-----END PGP MESSAGE-----") true body

mutual

/-- Whether a part or any of its subparts is PGP-encrypted. -/
def isEncryptedPart : ParsedMail → Bool
  | ⟨headers, bodyRaw, subparts⟩ =>
      let contentType :=
        toAsciiLowercase (((ParsedMail.mk headers bodyRaw []).header "content-type").getD "")
      -- PGP/MIME, an armour block in the part's own body, an Autocrypt setup message,
      -- and then the same of the subparts
      (contains contentType "multipart/encrypted" &&
        contains contentType "application/pgp-encrypted") ||
      bodyRaw.any hasPgpArmour ||
      contains contentType "application/autocrypt-setup" ||
      anyEncryptedPart subparts

def anyEncryptedPart : List ParsedMail → Bool
  | [] => false
  | part :: parts => isEncryptedPart part || anyEncryptedPart parts

end

/-! ### Addresses -/

/-- What stands between the first `<` and the last `>` of a string. -/
def bracketed (s : String) : Option String :=
  match find '<' s, rfind '>' s with
  | some first, some last => if first < last then some (slice (first + 1) last s) else none
  | _, _ => none

/-- The address in `MAIL FROM:<a@b>` or `RCPT TO:<a@b>`. -/
def addressOf (command : String) : String :=
  (bracketed command).getD ((splitOnce ':' command).elim "" fun parts => trim parts.2)

/-- The address of a header, lowercased, or `none` when absent. -/
def headerAddress (parsed : ParsedMail) (name : String) : Option String :=
  (parsed.header name).bind fun value =>
    let address := toAsciiLowercase (trim ((bracketed value).getD (trim value)))
    if address = "" then none else some address

def domainOf (address : String) : Option String :=
  ((rsplitOnce '@' address).map fun parts => toAsciiLowercase (trim parts.2)).filter (· ≠ "")

/-- The `d=` tag of the message's DKIM signature. -/
def dkimDomain (parsed : ParsedMail) : Option String :=
  (parsed.header "dkim-signature").bind fun value =>
    (split ';' value).findSome? fun tag =>
      (splitOnce '=' tag).bind fun (key, val) =>
        if trim key = "d" then some (toAsciiLowercase (trim val)) else none

/-! ### The verdict -/

/-- What to do with a message. -/
inductive Verdict where
  | accept (stripSender : Bool)
  | refuse (reply : String)
  deriving DecidableEq, Repr

/-- The refusal of a message that is not encrypted. -/
def REJECT_REPLY : String :=
  "550 5.7.1 this relay carries only end-to-end encrypted mail, and this message is not encrypted"

/-- Every content check, in one place. -/
def inspect (parseMail : Bytes → Option ParsedMail) (mode : Mode) (raw : Bytes)
    (mailFrom : String) : Verdict :=
  match parseMail raw with
  | none => .refuse REJECT_REPLY
  | some parsed =>
      if !isEncryptedPart parsed then .refuse REJECT_REPLY
      else
        let «from» := headerAddress parsed "from"
        let envelope := toAsciiLowercase mailFrom
        -- a null sender is a bounce and has no From to agree with
        let mismatch := envelope != "" && «from».any (toAsciiLowercase · != envelope)
        match mode with
        | .outgoing =>
            if mismatch then
              .refuse "550 5.7.1 the From header must match the envelope sender"
            else .accept false
        | .incoming =>
            match «from».bind domainOf, dkimDomain parsed with
            | some fromDomain, some signingDomain =>
                if fromDomain ≠ signingDomain then
                  .refuse "550 5.7.1 the DKIM signature does not match the From domain"
                else .accept mismatch
            | _, _ => .accept mismatch

/-- A message that is accepted parses, and some part of it is encrypted. -/
theorem inspect_accept {parseMail : Bytes → Option ParsedMail} {mode : Mode} {raw : Bytes}
    {mailFrom : String} {strip : Bool} :
  inspect parseMail mode raw mailFrom = .accept strip →
  ∃ parsed, parseMail raw = some parsed ∧ isEncryptedPart parsed = true
  := by
  intro h
  rw [inspect] at h
  split at h
  · cases h
  · rename_i parsed hparsed
    split at h
    · cases h
    · rename_i hencrypted
      use parsed, hparsed
      simpa using hencrypted

end Filtermail
