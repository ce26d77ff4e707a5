import Mathlib.Data.List.TakeWhile
import Noombat.Text

/-!
# Messages of the chat

How the relay composes the message that it submits for a client, with the header that
advertises the client's key, and what it reads out of a message that it fetches.  A function
that may panic has the result `none`.
-/

namespace Chat

/-- A message as the mail parser has parsed it. -/
structure ParsedMail where
  /-- Each header with its name and its value. -/
  headers : List (String × String)
  bodyRaw : Except String Bytes
  /-- The raw bodies of the parts. -/
  subparts : List (Except String Bytes)

/-- The libraries that the relay calls. -/
structure MailLibrary where
  encode : Bytes → String
  decode : String → Except String Bytes
  parseMail : Bytes → Except String ParsedMail
  /-- Why an address cannot be that of an envelope. -/
  addressError : String → Option String

/-! ### The header -/

/-- The number of bytes of a list of characters. -/
def byteLength (cs : List Char) : Nat :=
  (cs.map Char.utf8Size).sum

def MAX_AUTOCRYPT_HEADER_BYTES : Nat := 16384

/-- The value of the first attribute `addr`. -/
def addrValue (header : String) : Option String :=
  ((Text.split ';' header).map Text.trim).findSome? fun part => do
    let (key, value) ← Text.splitOnce '=' part
    if Text.eqIgnoreAsciiCase (Text.trim key) "addr" then some (Text.trim value) else none

def validateAutocryptHeader (header expectedSender : String) : Option String :=
  if byteLength header.toList > MAX_AUTOCRYPT_HEADER_BYTES then none
  else
    match addrValue header with
    | some addr => if Text.eqIgnoreAsciiCase addr expectedSender then some header else none
    | none => none

/-- The characters of the first `n` bytes and those after, if there are so many bytes and they
end between two characters. -/
def splitAtByte : Nat → List Char → Option (List Char × List Char)
  | 0, cs => some ([], cs)
  | _ + 1, [] => none
  | n + 1, c :: cs =>
      if c.utf8Size ≤ n + 1 then
        (splitAtByte (n + 1 - c.utf8Size) cs).map fun (line, rest) => (c :: line, rest)
      else none

def crlf : List Char :=
  ['\r', '\n']

/-- The number of bytes on a line. -/
def LINE_WIDTH : Nat := 76

/-- The lines of what is left of a value, each after a single space, at most `n` of them. -/
def continuationLines : Nat → List Char → Option (List Char)
  | 0, _ => some []
  | _ + 1, [] => some []
  | n + 1, c :: cs => do
      let budget := LINE_WIDTH - 1
      let (line, rest) ← splitAtByte (min budget (byteLength (c :: cs))) (c :: cs)
      let out ← continuationLines n rest
      return ' ' :: line ++ crlf ++ out

/-- The header field with a name and a value. -/
def foldHeaderValue (name value : String) : Option (List Char) :=
  let pre := name.toList ++ [':', ' ']
  let firstLineBudget := LINE_WIDTH - byteLength pre
  if byteLength value.toList ≤ firstLineBudget then some (pre ++ value.toList ++ crlf)
  else do
    let (line, rest) ← splitAtByte firstLineBudget value.toList
    let out ← continuationLines value.toList.length rest
    return pre ++ line ++ crlf ++ out

/-! ### What is submitted -/

/-- A string of ASCII characters in lines of 76. -/
def wrap (s : String) : String :=
  "\r\n".intercalate (((Text.asBytes s).toChunks 76).map fun chunk =>
    (String.fromUTF8? chunk.toByteArray).getD "")

/-- The fields of a message before the header that advertises a key. -/
def leadingFields (fromAddr toAddr date boundary : String) : String :=
  s!"From: <{fromAddr}>\r\nTo: <{toAddr}>\r\nDate: {date}\r\nMIME-Version: 1.0\r\n" ++
    "Content-Type: multipart/encrypted; protocol=\"application/pgp-encrypted\"; boundary=\"" ++
    boundary ++ "\"\r\n"

/-- The message after its header fields. -/
def messageBody (boundary wrapped : String) : String :=
  s!"--{boundary}\r\nContent-Type: application/pgp-encrypted\r\n" ++
    "Content-Description: PGP/MIME version identification\r\n\r\nVersion: 1\r\n\r\n" ++
    s!"--{boundary}\r\nContent-Type: application/octet-stream; name=\"encrypted.asc\"\r\n" ++
    "Content-Description: OpenPGP encrypted message\r\n" ++
    "Content-Disposition: inline; filename=\"encrypted.asc\"\r\n" ++
    s!"Content-Transfer-Encoding: base64\r\n\r\n{wrapped}\r\n\r\n--{boundary}--\r\n"

variable (lib : MailLibrary)

/-- The header that a client asks for, as its field; nothing if it is no valid header of the
sender. -/
def autocryptField («from» : String) (autocryptHeaderB64 : Option String) : Option (List Char) :=
  let validated := do
    let b64 ← autocryptHeaderB64
    let bytes ← (lib.decode b64).toOption
    let header ← String.fromUTF8? bytes.toByteArray
    validateAutocryptHeader header «from»
  match validated with
  | some header => foldHeaderValue "Autocrypt" header
  | none => some []

/-- A message that is ready to be submitted. -/
structure Submission where
  «from» : String
  «to» : String
  /-- The header field of a key, if there is one. -/
  autocrypt : List Char
  ciphertext : Bytes

/-- The message as it is submitted at a date, with a boundary drawn at random. -/
def Submission.rawMessage (date boundary : String) (m : Submission) : List Char :=
  (leadingFields m.from m.to date boundary).toList ++ m.autocrypt ++ crlf ++
    (messageBody boundary (wrap (lib.encode m.ciphertext))).toList

/-- What is submitted for a client, or why nothing is. -/
def composeMessage («from» «to» bodyB64 : String) (autocryptHeaderB64 : Option String) :
    Option (Except String Submission) :=
  match lib.decode bodyB64 with
  | .error e => some (.error s!"invalid base64 body: {e}")
  | .ok ciphertext => do
      let autocrypt ← autocryptField lib «from» autocryptHeaderB64
      match lib.addressError «from», lib.addressError «to» with
      | some e, _ => return .error s!"bad From: {e}"
      | none, some e => return .error s!"bad To: {e}"
      | none, none => return .ok ⟨«from», «to», autocrypt, ciphertext⟩

/-! ### What is read -/

/-- The value of the first header with a name. -/
def headerValue (name : String) (mail : ParsedMail) : Option String :=
  (mail.headers.find? fun h => Text.eqIgnoreAsciiCase h.1 name).map (·.2)

def extractAutocryptHeader (raw : Bytes) : Except String (Option String) :=
  match lib.parseMail raw with
  | .error e => .error s!"MIME parse error: {e}"
  | .ok parsed => .ok (headerValue "autocrypt" parsed)

def extractCiphertextBody (raw : Bytes) : Except String Bytes :=
  match lib.parseMail raw with
  | .error e => .error s!"MIME parse error: {e}"
  | .ok parsed =>
      let contentType := (headerValue "content-type" parsed).getD ""
      let body :=
        match parsed.subparts[1]? with
        | some part =>
            if Text.contains contentType "multipart/encrypted" then part else parsed.bodyRaw
        | none => parsed.bodyRaw
      body.mapError fun e => s!"body extraction failed: {e}"

/-- The address between the angle brackets of a header, or the whole value if it has none. -/
def addressOf (value : String) : Option String :=
  match Text.find '<' value, Text.find '>' value with
  | some start, some stop =>
      if start + 1 ≤ stop then some (Text.slice (start + 1) stop value) else none
  | _, _ => some (Text.trim value)

def extractFrom (raw : Bytes) : Option (Except String (Option String)) :=
  match lib.parseMail raw with
  | .error e => some (.error s!"MIME parse error: {e}")
  | .ok parsed =>
      match headerValue "from" parsed with
      | some value => (addressOf value).map fun address => .ok (some address)
      | none => some (.ok none)

end Chat
