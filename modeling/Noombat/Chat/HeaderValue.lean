import Noombat.Attributes
import Noombat.Chat.Autocrypt

/-!
# The value of a header

How a client reads the header that advertises a key: a list of attributes, of which it knows
three; an attribute that it does not know makes the header void, unless its name starts with an
underscore.  An attribute that is named twice counts as it is named last, but the preference for
encryption counts if it is stated anywhere.
-/

namespace Chat

/-! ### The library of the client -/

/-- White space and line ends. -/
def isJsWhitespace (c : Char) : Bool :=
  let n := c.toNat
  (9 ≤ n && n ≤ 13) || n == 0x20 || n == 0xA0 || n == 0x1680 || (0x2000 ≤ n && n ≤ 0x200A) ||
    n == 0x2028 || n == 0x2029 || n == 0x202F || n == 0x205F || n == 0x3000 || n == 0xFEFF

/-- The six bits that a character of base64 stands for. -/
def sextet (c : Char) : Option Nat :=
  if 'A' ≤ c ∧ c ≤ 'Z' then some (c.toNat - 'A'.toNat)
  else if 'a' ≤ c ∧ c ≤ 'z' then some (c.toNat - 'a'.toNat + 26)
  else if '0' ≤ c ∧ c ≤ '9' then some (c.toNat - '0'.toNat + 52)
  else if c = '+' then some 62
  else if c = '/' then some 63
  else none

/-- The bytes of groups of six bits; bits that are left over are dropped. -/
def bytesOfSextets : List Nat → Bytes
  | a :: b :: c :: d :: rest =>
      .ofNat (a * 4 + b / 16) :: .ofNat (b % 16 * 16 + c / 4) :: .ofNat (c % 4 * 64 + d) ::
        bytesOfSextets rest
  | [a, b, c] => [.ofNat (a * 4 + b / 16), .ofNat (b % 16 * 16 + c / 4)]
  | [a, b] => [.ofNat (a * 4 + b / 16)]
  | _ => []

/-- White space that `atob` skips. -/
def isAsciiWhitespace (c : Char) : Bool :=
  c == '\t' || c == '\n' || c == '\x0c' || c == '\r' || c == ' '

/-- The characters without a padding of one or two equality signs. -/
def stripPadding (data : List Char) : List Char :=
  if data.length % 4 = 0 then
    match data.reverse with
    | '=' :: '=' :: rest => rest.reverse
    | '=' :: rest => rest.reverse
    | _ => data
  else data

def atob (s : List Char) : Option Bytes :=
  let data := stripPadding (s.filter (!isAsciiWhitespace ·))
  if data.length % 4 = 1 then none else (data.mapM sextet).map bytesOfSextets

/-! ### The parser -/

/-- The attributes of a value, with white space dropped around their names and values. -/
def attributes (headerValue : List Char) : List (List Char × List Char) :=
  Attributes.attributes isJsWhitespace (· == ';') (· == '=') headerValue

def knownAttributes : List String :=
  ["addr", "prefer-encrypt", "keydata"]

/-- What has been read of a header. -/
structure ParseState where
  addr : Option (List Char)
  keydataB64 : Option (List Char)
  preferEncrypt : PreferEncrypt

variable (toLowerCase : String → String)

/-- An attribute is read, unless it makes the header void. -/
def parseAttribute (key : String) (value : List Char) (state : ParseState) : Option ParseState :=
  if key = "addr" then some { state with addr := some value }
  else if key = "prefer-encrypt" then
    if toLowerCase (String.ofList value) = "mutual" then
      some { state with preferEncrypt := .mutual }
    else some state
  else if key = "keydata" then some { state with keydataB64 := some value }
  else if !Text.startsWith key "_" && !knownAttributes.contains key then none
  else some state

def parseAttributes : List (List Char × List Char) → ParseState → Option ParseState
  | [], state => some state
  | (key, value) :: rest, state =>
      (parseAttribute toLowerCase (toLowerCase (String.ofList key)) value state).bind
        (parseAttributes rest)

/-- The key that is advertised, which is not empty. -/
def keyOf (keydataB64 : Option (List Char)) : Option {key : Bytes // key ≠ []} :=
  match keydataB64 with
  | none => none
  | some value =>
      if value = [] then none
      else
        match atob (value.filter (!isJsWhitespace ·)) with
        | none => none
        | some publicKey => if h : publicKey ≠ [] then some ⟨publicKey, h⟩ else none

def parseAutocryptHeader (headerValue : List Char) : Option AutocryptHeader := do
  let state ← parseAttributes toLowerCase (attributes headerValue) ⟨none, none, .nopreference⟩
  let key ← keyOf state.keydataB64
  return ⟨String.ofList (state.addr.getD []), key.1, state.preferEncrypt, key.2⟩

/-! ### What is read -/

/-- The value of the last attribute with a name. -/
def lastOf (key : String) (attrs : List (List Char × List Char)) : Option (List Char) :=
  (attrs.reverse.find? fun a => toLowerCase (String.ofList a.1) == key).map (·.2)

/-- No attribute makes the header void. -/
def Understood (attrs : List (List Char × List Char)) : Prop :=
  ∀ a ∈ attrs, toLowerCase (String.ofList a.1) ∈ knownAttributes ∨
    Text.startsWith (toLowerCase (String.ofList a.1)) "_" = true

instance (attrs : List (List Char × List Char)) : Decidable (Understood toLowerCase attrs) :=
  inferInstanceAs (Decidable (∀ a ∈ attrs, _))

/-- The preference for encryption is stated. -/
def PrefersMutual (attrs : List (List Char × List Char)) : Prop :=
  ∃ a ∈ attrs, toLowerCase (String.ofList a.1) = "prefer-encrypt" ∧
    toLowerCase (String.ofList a.2) = "mutual"

instance (attrs : List (List Char × List Char)) : Decidable (PrefersMutual toLowerCase attrs) :=
  inferInstanceAs (Decidable (∃ a ∈ attrs, _))

variable {toLowerCase}

theorem parseAttribute_eq_none {key : String} {value : List Char} {state : ParseState}
    (h : key ∉ knownAttributes) (h' : Text.startsWith key "_" = false) :
  parseAttribute toLowerCase key value state = none
  := by
  simp only [knownAttributes, List.mem_cons, List.not_mem_nil, or_false, not_or] at h
  rw [parseAttribute, if_neg h.1, if_neg h.2.1, if_neg h.2.2, if_pos]
  simp [h', knownAttributes, h]

theorem parseAttribute_eq_some {key : String} {value : List Char} {state : ParseState}
    (h : key ∈ knownAttributes ∨ Text.startsWith key "_" = true) :
  parseAttribute toLowerCase key value state =
    some ⟨if key = "addr" then some value else state.addr,
      if key = "keydata" then some value else state.keydataB64,
      if key = "prefer-encrypt" ∧ toLowerCase (String.ofList value) = "mutual" then .mutual
      else state.preferEncrypt⟩
  := by
  rw [parseAttribute]
  by_cases haddr : key = "addr"
  · subst haddr
    rfl
  by_cases hprefer : key = "prefer-encrypt"
  · subst hprefer
    by_cases hmutual : toLowerCase (String.ofList value) = "mutual"
    · simp [hmutual]
    · simp [hmutual]
  by_cases hkeydata : key = "keydata"
  · subst hkeydata
    rfl
  have hunderscore : Text.startsWith key "_" = true := by
    rcases h with h | h
    · simp [knownAttributes, haddr, hprefer, hkeydata] at h
    · exact h
  simp [haddr, hprefer, hkeydata, hunderscore]

theorem lastOf_cons (key : String) (a : List Char × List Char)
    (attrs : List (List Char × List Char)) :
  lastOf toLowerCase key (a :: attrs) =
    (lastOf toLowerCase key attrs).or
      (if toLowerCase (String.ofList a.1) = key then some a.2 else none)
  := by
  rw [lastOf, lastOf, List.reverse_cons, List.find?_append]
  cases attrs.reverse.find? fun a => toLowerCase (String.ofList a.1) == key with
  | some a' => rfl
  | none =>
      by_cases hkey : toLowerCase (String.ofList a.1) = key
      · simp [hkey]
      · simp [hkey]

theorem prefersMutual_cons {a : List Char × List Char} {attrs : List (List Char × List Char)} :
  PrefersMutual toLowerCase (a :: attrs) ↔
    (toLowerCase (String.ofList a.1) = "prefer-encrypt" ∧
      toLowerCase (String.ofList a.2) = "mutual") ∨ PrefersMutual toLowerCase attrs
  := by
  simp [PrefersMutual]

theorem understood_cons {a : List Char × List Char} {attrs : List (List Char × List Char)} :
  Understood toLowerCase (a :: attrs) ↔
    (toLowerCase (String.ofList a.1) ∈ knownAttributes ∨
      Text.startsWith (toLowerCase (String.ofList a.1)) "_" = true) ∧
    Understood toLowerCase attrs
  := List.forall_mem_cons

/-- What the attributes given, read after others, leave to be known. -/
theorem parseAttributes_eq (attrs : List (List Char × List Char)) (state : ParseState) :
  parseAttributes toLowerCase attrs state =
    if Understood toLowerCase attrs then
      some ⟨(lastOf toLowerCase "addr" attrs).or state.addr,
        (lastOf toLowerCase "keydata" attrs).or state.keydataB64,
        if PrefersMutual toLowerCase attrs then .mutual else state.preferEncrypt⟩
    else none
  := by
  induction attrs generalizing state with
  | nil => simp [parseAttributes, Understood, PrefersMutual, lastOf]
  | cons a attrs ih =>
      obtain ⟨key, value⟩ := a
      rw [parseAttributes]
      by_cases hkey : toLowerCase (String.ofList key) ∈ knownAttributes ∨
          Text.startsWith (toLowerCase (String.ofList key)) "_" = true
      · rw [parseAttribute_eq_some hkey, Option.bind_some, ih]
        by_cases hrest : Understood toLowerCase attrs
        · rw [if_pos hrest, if_pos (understood_cons.mpr ⟨hkey, hrest⟩), lastOf_cons, lastOf_cons]
          have hlast : ∀ (last old : Option (List Char)) (p : Prop) [Decidable p],
              last.or (if p then some value else old) =
                (last.or (if p then some value else none)).or old := by
            intro last old p _
            cases last with
            | some value' => rfl
            | none => split <;> rfl
          have hmutual : (if PrefersMutual toLowerCase attrs then PreferEncrypt.mutual
              else if toLowerCase (String.ofList key) = "prefer-encrypt" ∧
                toLowerCase (String.ofList value) = "mutual" then .mutual
              else state.preferEncrypt) =
                if PrefersMutual toLowerCase ((key, value) :: attrs) then .mutual
                else state.preferEncrypt := by
            by_cases hmutual : PrefersMutual toLowerCase attrs
            · rw [if_pos hmutual, if_pos (prefersMutual_cons.mpr (.inr hmutual))]
            · simp only [prefersMutual_cons, hmutual, or_false, if_false]
          rw [hmutual, hlast _ state.addr, hlast _ state.keydataB64]
        · rw [if_neg hrest, if_neg fun hall => hrest (understood_cons.mp hall).2]
      · obtain ⟨hknown, hunderscore⟩ := not_or.mp hkey
        rw [parseAttribute_eq_none hknown (Bool.eq_false_iff.mpr hunderscore), Option.bind_none,
          if_neg fun hall => hkey (understood_cons.mp hall).1]

/-- A header is read out of attributes that are understood, if there is a key among them. -/
theorem parseAutocryptHeader_eq (headerValue : List Char) :
  parseAutocryptHeader toLowerCase headerValue =
    let attrs := attributes headerValue
    if Understood toLowerCase attrs then
      (keyOf (lastOf toLowerCase "keydata" attrs)).map fun key =>
        ⟨String.ofList ((lastOf toLowerCase "addr" attrs).getD []), key.1,
          if PrefersMutual toLowerCase attrs then .mutual else .nopreference, key.2⟩
    else none
  := by
  rw [parseAutocryptHeader, parseAttributes_eq]
  by_cases hall : Understood toLowerCase (attributes headerValue)
  · simp only [if_pos hall, Option.or_none]
    change (keyOf (lastOf toLowerCase "keydata" (attributes headerValue))).bind _ = _
    cases keyOf (lastOf toLowerCase "keydata" (attributes headerValue)) with
    | none => rfl
    | some key => rfl
  · simp only [if_neg hall]
    rfl

example : (parseAutocryptHeader id "addr=al@h.ex; prefer-encrypt=mutual; keydata=AQIDBA==".toList).map
    (fun header => (header.addr, header.publicKey, header.preferEncrypt)) =
      some ("al@h.ex", [1, 2, 3, 4], .mutual) := by
  decide +kernel

end Chat
