import Noombat.Filtermail.Inspect

/-!
# What the filter lets through

A leaf of a message is sealed if nobody but its recipient can read it: if it is the control or
the payload of an encrypted container, an armoured block with nothing around it, or an Autocrypt
setup payload.  The filter looks for one part that it takes for encrypted, and takes a part for
encrypted if its content type contains some words or its body some lines.  So it lets through
readable leaves beside such a part, and in it.
-/

namespace Filtermail

open Text

/-! ### Parts and leaves -/

/-- Whether a part, apart from its subparts, is taken for encrypted. -/
def triggers (part : ParsedMail) : Bool :=
  let contentType := toAsciiLowercase ((part.header "content-type").getD "")
  (contains contentType "multipart/encrypted" && contains contentType "application/pgp-encrypted") ||
    part.bodyRaw.any hasPgpArmour || contains contentType "application/autocrypt-setup"

mutual

/-- A part with its subparts, and theirs. -/
def ParsedMail.parts : ParsedMail → List ParsedMail
  | ⟨headers, bodyRaw, subparts⟩ => ⟨headers, bodyRaw, subparts⟩ :: partsOfAll subparts

def partsOfAll : List ParsedMail → List ParsedMail
  | [] => []
  | part :: parts => part.parts ++ partsOfAll parts

end

/-- Where a part stands: alone, or at some place in another. -/
inductive Place where
  | root
  | child (container : ParsedMail) (index : Nat)

mutual

/-- The parts without subparts, each with its place. -/
def leavesAt (place : Place) : ParsedMail → List (Place × ParsedMail)
  | ⟨headers, bodyRaw, []⟩ => [(place, ⟨headers, bodyRaw, []⟩)]
  | ⟨headers, bodyRaw, part :: parts⟩ =>
      leavesFrom ⟨headers, bodyRaw, part :: parts⟩ 0 (part :: parts)

def leavesFrom (container : ParsedMail) (index : Nat) :
    List ParsedMail → List (Place × ParsedMail)
  | [] => []
  | part :: parts =>
      leavesAt (.child container index) part ++ leavesFrom container (index + 1) parts

end

/-- The leaves of a message. -/
def ParsedMail.leaves (parsed : ParsedMail) : List (Place × ParsedMail) :=
  leavesAt .root parsed

/-! ### What nobody can read -/

/-- The media type of a part, without parameters. -/
def ParsedMail.mediaType (part : ParsedMail) : String :=
  let value := (part.header "content-type").getD ""
  toAsciiLowercase (trim ((splitOnce ';' value).elim value Prod.fst))

/-- A container of encrypted content. -/
def IsContainer (part : ParsedMail) : Prop :=
  part.mediaType = "multipart/encrypted"

instance : DecidablePred IsContainer :=
  fun _ => inferInstanceAs (Decidable (_ = _))

/-- Text of which nothing is seen. -/
def Blank (body : Bytes) : Prop :=
  ∀ b ∈ body, b ∈ ([0x09, 0x0A, 0x0D, 0x20] : Bytes)

/-- The fixed text of a control part, with nothing around it. -/
def ControlBody (body : Bytes) : Prop :=
  ∃ before after, Blank before ∧ Blank after ∧ body = before ++ asBytes "Version: 1" ++ after

/-- An armoured block, with nothing around it. -/
def Armoured (body : Bytes) : Prop :=
  ∃ before block after, Blank before ∧ Blank after ∧
    body = before ++ asBytes "-----BEGIN PGP MESSAGE-----" ++ block ++
      asBytes "-----END PGP MESSAGE-----" ++ after

/-- A leaf that nobody but the recipient can read. -/
inductive Sealed : Place → ParsedMail → Prop where
  | control {container leaf : ParsedMail} {body : Bytes} : IsContainer container →
      leaf.mediaType = "application/pgp-encrypted" → leaf.bodyRaw = some body →
        ControlBody body → Sealed (.child container 0) leaf
  | payload {container leaf : ParsedMail} : IsContainer container →
      Sealed (.child container 1) leaf
  | armour {place : Place} {leaf : ParsedMail} {body : Bytes} : leaf.bodyRaw = some body →
      Armoured body → Sealed place leaf
  | setup {place : Place} {leaf : ParsedMail} :
      leaf.mediaType = "application/autocrypt-setup" → Sealed place leaf

/-! ### What is accepted -/

mutual

/-- A message is taken for encrypted just when one of its parts is. -/
theorem isEncryptedPart_iff : (part : ParsedMail) →
    (isEncryptedPart part = true ↔ ∃ p ∈ part.parts, triggers p = true)
  | ⟨headers, bodyRaw, subparts⟩ => by
      have hself : isEncryptedPart ⟨headers, bodyRaw, subparts⟩ =
          (triggers ⟨headers, bodyRaw, subparts⟩ || anyEncryptedPart subparts) := by
        rw [isEncryptedPart]
        rfl
      rw [hself, Bool.or_eq_true, anyEncryptedPart_iff subparts, ParsedMail.parts]
      simp only [List.exists_mem_cons_iff]

theorem anyEncryptedPart_iff : (parts : List ParsedMail) →
    (anyEncryptedPart parts = true ↔ ∃ p ∈ partsOfAll parts, triggers p = true)
  | [] => by simp [anyEncryptedPart, partsOfAll]
  | part :: parts => by
      rw [anyEncryptedPart, Bool.or_eq_true, isEncryptedPart_iff part, anyEncryptedPart_iff parts,
        partsOfAll]
      simp only [List.mem_append, or_and_right, exists_or]

end

/-- Whether a message is refused for its sender. -/
def senderRefused (mode : Mode) (parsed : ParsedMail) (mailFrom : String) : Bool :=
  let «from» := headerAddress parsed "from"
  let envelope := toAsciiLowercase mailFrom
  match mode with
  | .outgoing => envelope != "" && «from».any (toAsciiLowercase · != envelope)
  | .incoming =>
      match «from».bind domainOf, dkimDomain parsed with
      | some fromDomain, some signingDomain => fromDomain != signingDomain
      | _, _ => false

/-- A message is accepted just when it parses, a part is taken for encrypted, and it is not
refused for its sender. -/
theorem inspect_accept_iff {parseMail : Bytes → Option ParsedMail} {mode : Mode} {raw : Bytes}
    {mailFrom : String} :
  (∃ strip, inspect parseMail mode raw mailFrom = .accept strip) ↔
    ∃ parsed, parseMail raw = some parsed ∧ (∃ p ∈ parsed.parts, triggers p = true) ∧
      senderRefused mode parsed mailFrom = false
  := by
  rw [inspect]
  cases hparse : parseMail raw with
  | none => simp
  | some parsed =>
      simp only [Option.some.injEq, exists_eq_left', ← isEncryptedPart_iff]
      cases hencrypted : isEncryptedPart parsed with
      | false => simp
      | true =>
          cases mode with
          | outgoing =>
              rw [senderRefused]
              cases hmismatch : (toAsciiLowercase mailFrom != "" &&
                  (headerAddress parsed "from").any (toAsciiLowercase · != toAsciiLowercase mailFrom)) with
              | false => simp
              | true => simp
          | incoming =>
              rw [senderRefused]
              dsimp only
              cases (headerAddress parsed "from").bind domainOf with
              | none => simp
              | some fromDomain =>
                  cases dkimDomain parsed with
                  | none => simp
                  | some signingDomain =>
                      by_cases hsame : fromDomain = signingDomain
                      · simp [hsame]
                      · simp [hsame]

/-- A part without subparts. -/
def leafPart (contentType body : String) : ParsedMail :=
  ⟨[("Content-Type", contentType)], some (asBytes body), []⟩

/-- The text of an armoured block. -/
def armouredText : String :=
  "-----BEGIN PGP MESSAGE-----\r\n\r\nhQEM\r\n-----END PGP MESSAGE-----\r\n"

/-- The text of a message whose second part says hello. -/
def mixedText : String :=
  "From: a@b.c\r\nContent-Type: multipart/mixed; boundary=x\r\n\r\n--x\r\n" ++
    "Content-Type: text/plain\r\n\r\n" ++ armouredText ++
    "--x\r\nContent-Type: text/plain\r\n\r\nhello\r\n--x--\r\n"

/-- The parts of that message. -/
def mixed : ParsedMail :=
  ⟨[("From", "a@b.c"), ("Content-Type", "multipart/mixed; boundary=x")],
    some (asBytes ("--x\r\nContent-Type: text/plain\r\n\r\n" ++ armouredText ++
      "--x\r\nContent-Type: text/plain\r\n\r\nhello\r\n--x--\r\n")),
    [leafPart "text/plain" armouredText, leafPart "text/plain" "hello\r\n"]⟩

/-- The text of a message in an encrypted container. -/
def pgpMimeText : String :=
  "From: a@b.c\r\nContent-Type: multipart/encrypted; protocol=\"application/pgp-encrypted\"; " ++
    "boundary=x\r\n\r\n--x\r\nContent-Type: application/pgp-encrypted\r\n\r\n" ++
    "Version: 1\r\n--x\r\nContent-Type: application/octet-stream\r\n\r\nhQEM\r\n--x--\r\n"

/-- The parts of that message. -/
def pgpMime : ParsedMail :=
  ⟨[("From", "a@b.c"), ("Content-Type",
      "multipart/encrypted; protocol=\"application/pgp-encrypted\"; boundary=x")],
    some (asBytes ("--x\r\nContent-Type: application/pgp-encrypted\r\n\r\nVersion: 1\r\n" ++
      "--x\r\nContent-Type: application/octet-stream\r\n\r\nhQEM\r\n--x--\r\n")),
    [leafPart "application/pgp-encrypted" "Version: 1\r\n",
      leafPart "application/octet-stream" "hQEM\r\n"]⟩

/-- A parser that knows one message. -/
def knows (text : String) (parsed : ParsedMail) (raw : Bytes) : Option ParsedMail :=
  if raw = asBytes text then some parsed else none

theorem knows_self (text : String) (parsed : ParsedMail) :
  knows text parsed (asBytes text) = some parsed
  := if_pos rfl

theorem hello_readable (place : Place) (hplace : ∀ container index,
    place = .child container index → ¬ IsContainer container) :
  ¬ Sealed place (leafPart "text/plain" "hello\r\n")
  := by
  intro h
  cases h with
  | control hcontainer => exact hplace _ _ rfl hcontainer
  | payload hcontainer => exact hplace _ _ rfl hcontainer
  | armour hbody harmoured =>
      obtain ⟨before, block, after, _, _, htext⟩ := harmoured
      obtain rfl := Option.some.inj hbody
      have hlength := congrArg List.length htext
      have hopening : (asBytes "-----BEGIN PGP MESSAGE-----").length = 27 := by decide +kernel
      have hhello : (asBytes "hello\r\n").length = 7 := by decide +kernel
      simp only [List.length_append, hopening, hhello] at hlength
      omega
  | setup htype => revert htype; decide +kernel

end Filtermail
