import Noombat.UrlParsing

/-!
# The object store

Uploads may be kept in a bucket of an S3-compatible store.  A request for an object is signed: the
path that is signed is put together from the bucket, the prefix of the keys and the key, each
segment encoded, while the path that is requested is what the parser of URLs makes of the endpoint
with that path put after it.
-/

namespace Media.ObjectStore

open Text Url

/-! ### The store -/

/-- A store that is backed by an S3-compatible endpoint. -/
structure Store where
  endpoint : String
  bucket : String
  region : String
  keyPrefix : String
  accessKey : String
  secretKey : String
  pathStyle : Bool

/-- A store with the endpoint as it is configured. -/
def s3 (endpoint bucket region keyPrefix accessKey secretKey : String) (pathStyle : Bool) : Store where
  endpoint := trimEndMatches '/' endpoint
  bucket := bucket
  region := region
  keyPrefix := keyPrefix
  accessKey := accessKey
  secretKey := secretKey
  pathStyle := pathStyle

/-- The store that the program is started with: object storage needs all four. -/
def mediaStore (endpoint bucket region keyPrefix accessKey secretKey : String) (pathStyle : Bool) :
    Option Store :=
  if endpoint = "" ∨ bucket = "" ∨ accessKey = "" ∨ secretKey = "" then none
  else some (s3 endpoint bucket region keyPrefix accessKey secretKey pathStyle)

/-- Whether a character is unreserved in a URL. -/
def isUnreserved (c : Char) : Bool :=
  c.isAlphanum || c == '-' || c == '_' || c == '.' || c == '~'

def urlencode (s : String) : String :=
  String.ofList (Percent.encode isUnreserved s.toList)

def isAsciiHexdigit (c : Char) : Bool :=
  c.isDigit || 'a' ≤ c && c ≤ 'f' || 'A' ≤ c && c ≤ 'F'

/-- Whether a key is one that this module has produced. -/
def isObjectKey (key : String) : Bool :=
  key.utf8ByteSize == 32 && key.toList.all isAsciiHexdigit

namespace Store

variable (parseHost : List Char → Option String) (store : Store)

/-- The text that the path of an object is put after. -/
def base : Option String :=
  if store.pathStyle then some store.endpoint
  else do
    let (scheme, rest) ← splitOnceStr "://" store.endpoint
    let host := (splitOnceStr "://" rest).elim rest (·.1)
    return scheme ++ "://" ++ store.bucket ++ "." ++ host

/-- The path of an object. -/
def path (key : String) : String :=
  -- each segment is percent-encoded separately so the separators survive
  let encoded := "/".intercalate ((split '/' (store.keyPrefix ++ key)).map urlencode)
  if store.pathStyle then "/" ++ urlencode store.bucket ++ "/" ++ encoded else "/" ++ encoded

/-- The URL an object lives at, and the path to sign for it. -/
def s3Url (key : String) : Option (Target × String) := do
  let base ← store.base
  let path := store.path key
  let url ← parseHttp parseHost (base ++ path)
  return (url, path)

end Store

/-! ### Requests -/

/-- The digest functions. -/
structure Crypto where
  sha256 : Bytes → Bytes
  hmacSha256 : Bytes → Bytes → Bytes

def hex (bytes : Bytes) : String :=
  String.ofList (bytes.flatMap fun b =>
    [(Percent.hexDigit (b.toNat / 16)).toLower, (Percent.hexDigit (b.toNat % 16)).toLower])

/-- A time, as it is written in a signature. -/
structure Timestamp where
  amzDate : String
  dateStamp : String

/-- What is signed. -/
structure Signing where
  method : String
  canonicalPath : String
  host : String
  payloadHash : String
  now : Timestamp
  region : String
  service : String
  accessKey : String
  secretKey : String

def signedHeaders : String :=
  "host;x-amz-content-sha256;x-amz-date"

def Signing.canonicalRequest (s : Signing) : String :=
  let canonicalHeaders := "host:" ++ s.host ++ "\nx-amz-content-sha256:" ++ s.payloadHash ++
    "\nx-amz-date:" ++ s.now.amzDate ++ "\n"
  -- no query string on any request this makes
  s.method ++ "\n" ++ s.canonicalPath ++ "\n\n" ++ canonicalHeaders ++ "\n" ++ signedHeaders ++
    "\n" ++ s.payloadHash

/-- An AWS Signature Version 4 `Authorization` header. -/
def signV4 (crypto : Crypto) (s : Signing) : String :=
  let scope := s.now.dateStamp ++ "/" ++ s.region ++ "/" ++ s.service ++ "/aws4_request"
  let stringToSign := "AWS4-HMAC-SHA256\n" ++ s.now.amzDate ++ "\n" ++ scope ++ "\n" ++
    hex (crypto.sha256 (asBytes s.canonicalRequest))
  let dateKey := crypto.hmacSha256 (asBytes ("AWS4" ++ s.secretKey)) (asBytes s.now.dateStamp)
  let regionKey := crypto.hmacSha256 dateKey (asBytes s.region)
  let serviceKey := crypto.hmacSha256 regionKey (asBytes s.service)
  let signingKey := crypto.hmacSha256 serviceKey (asBytes "aws4_request")
  let signature := hex (crypto.hmacSha256 signingKey (asBytes stringToSign))
  "AWS4-HMAC-SHA256 Credential=" ++ s.accessKey ++ "/" ++ scope ++ ", SignedHeaders=" ++
    signedHeaders ++ ", Signature=" ++ signature

/-- A request that goes out. -/
structure Request where
  method : String
  url : Target
  headers : List (String × String)
  body : Option Bytes

inductive IoError where
  | invalidInput (message : String)

/-- The request for an object, and what is signed for it.  Of the URLs that are parsed those with
another scheme than `http` and `https` are refused before anything goes out. -/
def s3Request (crypto : Crypto) (parseHost : List Char → Option String) (store : Store)
    (now : Timestamp) (method key : String) (body : Bytes) : Except IoError (Signing × Request) :=
  if !isObjectKey key then .error (.invalidInput "malformed object key")
  else
    match store.s3Url parseHost key with
    | none => .error (.invalidInput "unusable endpoint")
    | some (url, canonicalPath) =>
        let host := url.port.elim url.host fun port => url.host ++ ":" ++ toString port
        let payloadHash := hex (crypto.sha256 body)
        let signing :=
          { method, canonicalPath, host, payloadHash, now, region := store.region
            service := "s3", accessKey := store.accessKey, secretKey := store.secretKey : Signing }
        .ok (signing,
          { method, url
            headers := [("host", host), ("x-amz-content-sha256", payloadHash),
              ("x-amz-date", now.amzDate), ("authorization", signV4 crypto signing)]
            body := if method = "PUT" then some body else none })

/-! ### What is signed -/

/-- The path that is signed is the path that is requested, and the host that is signed is the one
that is sent. -/
def SignsRequest (o : Signing × Request) : Prop :=
  o.1.canonicalPath = o.2.url.path ∧ o.2.headers.lookup "host" = some o.1.host

/-- The requests that a store makes for an object. -/
def Requests (parseHost : List Char → Option String) (store : Store) (key : String)
    (o : Signing × Request) : Prop :=
  ∃ crypto now method body, s3Request crypto parseHost store now method key body = .ok o

/-- The place that a request is addressed to. -/
def address (o : Signing × Request) : String × Option Nat × String :=
  (o.2.url.host, o.2.url.port, o.2.url.path)

/-- What a store makes of its objects: each request is signed for what it is, and requests of two
stores for different objects go to different places. -/
structure Faithful (parseHost : List Char → Option String) (store store' : Store) : Prop where
  signs : ∀ key o, Requests parseHost store key o → SignsRequest o
  signs' : ∀ key o, Requests parseHost store' key o → SignsRequest o
  apart : ∀ key key' o o', Requests parseHost store key o → Requests parseHost store' key' o' →
    (store.bucket, store.keyPrefix, key) ≠ (store'.bucket, store'.keyPrefix, key') →
      address o ≠ address o'

namespace Store

variable (parseHost : List Char → Option String) (store store' : Store)

/-- The URL of the bucket, without an object. -/
def bucketUrl : Option Target :=
  store.base.bind fun base =>
    parseHttp parseHost (base ++ if store.pathStyle then "/" ++ urlencode store.bucket ++ "/" else "/")

/-- The host that the text names by itself that paths are put after. -/
def site : Option Located :=
  store.base.bind fun base => locate parseHost (start base.toList)

/-- The segments before the last one of the path of an object. -/
def directories : List String :=
  (if store.pathStyle then [store.bucket] else []) ++ (split '/' store.keyPrefix).dropLast

/-- If the bucket has a URL, the text that paths are put after names a host by itself, has neither a
query nor a fragment, and no path but one that comes to nothing; and neither the bucket in a path
nor a directory of the prefix is a dot segment. -/
def SignsPath : Prop :=
  (store.bucketUrl parseHost).isSome = true →
    ∃ site, store.site parseHost = some site ∧ site.IsOpen ∧ site.directories = [] ∧
      ∀ segment ∈ store.directories, segment ≠ "." ∧ segment ≠ ".."

/-- Of two buckets with the same prefix that are named in the host, each is a host of its own. -/
def HostsApart : Prop :=
  store.pathStyle = false → store.bucket ≠ store'.bucket → store.keyPrefix = store'.keyPrefix →
    ∀ site site', store.site parseHost = some site → store'.site parseHost = some site' →
      (site.host, site.port) ≠ (site'.host, site'.port)

end Store

/-! ### Encoded segments -/

theorem isSegmentChar_of_isUnreserved {c : Char} (h : isUnreserved c = true) :
  isSegmentChar c = true
  := by
  have hexcluded : ∀ d ∈ ['"', '#', '<', '>', '?', '^', Char.ofNat 0x60, '\x7b', '\x7d', '/', '\\'],
      isUnreserved d = false := by decide
  have hne : ∀ d ∈ ['"', '#', '<', '>', '?', '^', Char.ofNat 0x60, '\x7b', '\x7d', '/', '\\'],
      c ≠ d := by
    rintro d hd rfl
    rw [hexcluded c hd] at h
    cases h
  have hrange : 0x20 < c.toNat ∧ c.toNat < 0x7F := by
    have hval : c.toNat = c.val.toNat := rfl
    simp only [isUnreserved, Char.isAlphanum, Text.isAlpha_eq, Text.isUpper_eq, Text.isLower_eq,
      Char.isDigit, Bool.or_eq_true, Bool.and_eq_true, decide_eq_true_eq, beq_iff_eq,
      UInt32.le_iff_toNat_le, ge_iff_le, Char.reduceVal] at h
    have h48 : (48 : UInt32).toNat = 48 := rfl
    have h57 : (57 : UInt32).toNat = 57 := rfl
    have h65 : (65 : UInt32).toNat = 65 := rfl
    have h90 : (90 : UInt32).toNat = 90 := rfl
    have h97 : (97 : UInt32).toNat = 97 := rfl
    have h122 : (122 : UInt32).toNat = 122 := rfl
    obtain ((((h | h) | rfl) | rfl) | rfl) | rfl := h
    · omega
    · omega
    · decide
    · decide
    · decide
    · decide
  simp only [List.forall_mem_cons] at hne
  simp [isSegmentChar, pathKeep, isSlash, hrange, hne]

/-- A segment of a path, encoded. -/
def segment (s : List Char) : List Char :=
  Percent.encode isUnreserved s

theorem isSegmentChar_of_mem {s : List Char} {c : Char} (h : c ∈ segment s) :
  isSegmentChar c = true
  := by
  have hdigits : ∀ c ∈ Percent.digits, isSegmentChar c = true := by decide
  obtain ⟨_, hc⟩ | rfl | hc := Percent.mem_encode h
  · exact isSegmentChar_of_isUnreserved hc
  · decide
  · exact hdigits c hc

theorem segment_injective {s t : List Char} (h : segment s = segment t) :
  s = t
  := Percent.encode_injective rfl h

/-- A segment is encoded as a dot segment just if it is one. -/
theorem isDots_segment (s : List Char) :
  isDots (segment s) = true ↔ s = ".".toList ∨ s = "..".toList
  := by
  have hbytes := @Percent.decode_encode isUnreserved rfl s
  constructor
  · intro h
    rw [isDots, Bool.or_eq_true] at h
    obtain h | h := h
    · left
      have hdot : ∀ l ∈ [".".toList, "%2e".toList, "%2E".toList],
          Percent.decode l = asBytes "." := by decide
      have hsame := asBytes_injective (hbytes.symm.trans (hdot _ (of_decide_eq_true h)))
      rw [← hsame, String.toList_ofList]
    · right
      have hdots : ∀ l ∈ ["..".toList, "%2e%2e".toList, "%2e%2E".toList, "%2E%2e".toList,
          "%2E%2E".toList, "%2e.".toList, "%2E.".toList, ".%2e".toList, ".%2E".toList],
          Percent.decode l = asBytes ".." := by decide
      have hsame := asBytes_injective (hbytes.symm.trans (hdots _ (of_decide_eq_true h)))
      rw [← hsame, String.toList_ofList]
  · rintro (rfl | rfl)
    · decide
    · decide

namespace Store

variable {parseHost : List Char → Option String} {store store' : Store} {key : String}

/-- The segments of the path of an object. -/
def segments (store : Store) (key : String) : Segments where
  list := (if store.pathStyle then [segment store.bucket.toList] else []) ++
    (splitList (· == '/') (store.keyPrefix ++ key).toList).map segment
  nonempty := by
    intro h
    exact splitList_ne_nil _ (List.map_eq_nil_iff.mp (List.append_eq_nil_iff.mp h).2)
  chars := by
    intro s hs c hc
    obtain hs | hs := List.mem_append.mp hs
    · split at hs
      · obtain rfl := List.mem_singleton.mp hs
        exact isSegmentChar_of_mem hc
      · cases hs
    · obtain ⟨part, _, rfl⟩ := List.mem_map.mp hs
      exact isSegmentChar_of_mem hc

theorem path_eq (store : Store) (key : String) :
  store.path key = String.ofList (store.segments key).text
  := by
  apply String.toList_inj.mp
  have hsegments : (("/".intercalate ((split '/' (store.keyPrefix ++ key)).map urlencode))).toList =
      ['/'].intercalate ((splitList (· == '/') (store.keyPrefix ++ key).toList).map segment) := by
    rw [String.toList_intercalate, split, List.map_map, List.map_map]
    congr 1
    apply List.map_congr_left
    intro part _
    simp only [Function.comp_apply, urlencode, String.toList_ofList, segment]
  have hne : (splitList (· == '/') (store.keyPrefix ++ key).toList).map segment ≠ [] :=
    fun h => splitList_ne_nil _ (List.map_eq_nil_iff.mp h)
  rw [String.toList_ofList, path, Segments.text, segments, pathText]
  dsimp only
  split
  · rw [String.toList_append, String.toList_append, String.toList_append, hsegments]
    generalize (splitList (· == '/') (store.keyPrefix ++ key).toList).map segment = parts at hne ⊢
    cases parts with
    | nil => exact absurd rfl hne
    | cons part parts =>
        rw [List.singleton_append, List.intercalate_cons_cons, urlencode, String.toList_ofList]
        simp [segment]
  · rw [String.toList_append, hsegments]
    rfl

/-- The segments of the path of the bucket. -/
def root (store : Store) : Segments where
  list := (if store.pathStyle then [segment store.bucket.toList] else []) ++ [[]]
  nonempty := by
    intro h
    cases (List.append_eq_nil_iff.mp h).2
  chars := by
    intro s hs c hc
    obtain hs | hs := List.mem_append.mp hs
    · split at hs
      · obtain rfl := List.mem_singleton.mp hs
        exact isSegmentChar_of_mem hc
      · cases hs
    · obtain rfl := List.mem_singleton.mp hs
      cases hc

/-- The segments of a path that is a slash. -/
def emptySegments : Segments where
  list := [[]]
  nonempty := List.cons_ne_nil _ _
  chars := by
    intro s hs c hc
    obtain rfl := List.mem_singleton.mp hs
    cases hc

theorem bucketUrl_eq {base : String} (hbase : store.base = some base) :
  store.bucketUrl parseHost = parseHttp parseHost (String.ofList (base.toList ++ store.root.text))
  := by
  rw [bucketUrl, hbase, Option.bind_some, String.ofList_append, String.ofList_toList]
  congr 2
  apply String.toList_inj.mp
  rw [String.toList_ofList, Segments.text, root, pathText]
  dsimp only
  split
  · rw [String.toList_append, String.toList_append, urlencode, String.toList_ofList]
    simp [segment]
  · rfl

theorem s3Url_eq {base : String} (hbase : store.base = some base) (key : String) :
  store.s3Url parseHost key =
    (parseHttp parseHost (String.ofList (base.toList ++ (store.segments key).text))).map
      fun url => (url, store.path key)
  := by
  rw [s3Url, hbase]
  change ((parseHttp parseHost (base ++ store.path key)).bind fun url =>
    some (url, store.path key)) = _
  rw [path_eq, String.ofList_append, String.ofList_toList, Option.map_eq_bind]
  rfl

/-- A request is made for a key, if the URL of the object is one. -/
theorem requests_of_s3Url {url : Target} (hkey : isObjectKey key = true)
    (hurl : store.s3Url parseHost key = some (url, store.path key)) :
  ∃ o, Requests parseHost store key o ∧ o.1.canonicalPath = store.path key ∧ o.2.url = url
  := by
  have hrequest : ∃ o, s3Request ⟨id, fun _ => id⟩ parseHost store ⟨"", ""⟩ "GET" key [] = .ok o ∧
      o.1.canonicalPath = store.path key ∧ o.2.url = url := by
    rw [s3Request, hkey, hurl]
    exact ⟨_, rfl, rfl, rfl⟩
  obtain ⟨o, ho, hpath, hurl⟩ := hrequest
  exact ⟨o, ⟨_, _, _, _, ho⟩, hpath, hurl⟩

theorem of_requests {o : Signing × Request} (h : Requests parseHost store key o) :
  isObjectKey key = true ∧ store.s3Url parseHost key = some (o.2.url, store.path key) ∧
    o.1.canonicalPath = store.path key ∧ o.2.headers.lookup "host" = some o.1.host
  := by
  obtain ⟨crypto, now, method, body, h⟩ := h
  rw [s3Request] at h
  split at h
  · cases h
  · rename_i hkey
    split at h
    · cases h
    · rename_i url canonicalPath hurl
      obtain rfl := Except.ok.inj h
      have hpath : canonicalPath = store.path key := by
        cases hbase : store.base with
        | none =>
            rw [s3Url, hbase] at hurl
            cases hurl
        | some base =>
            rw [s3Url_eq hbase] at hurl
            obtain ⟨_, _, hsame⟩ := Option.map_eq_some_iff.mp hurl
            exact (Prod.mk.inj hsame).2.symm
      refine ⟨by simpa using hkey, ?_, hpath, rfl⟩
      rw [hurl, hpath]

/-- Where the bucket is named in the host, the text that paths are put after names one. -/
theorem after_ne_nil {base scheme : String} {after : List Char} (hbase : store.base = some base)
    (hstyle : store.pathStyle = false) (h : splitHttp (start base.toList) = some (scheme, after)) :
  after ≠ []
  := by
  rw [Store.base, hstyle, if_neg Bool.false_ne_true] at hbase
  obtain ⟨⟨scheme', rest⟩, _, hbase⟩ := Option.bind_eq_some_iff.mp hbase
  obtain rfl := Option.some.inj hbase
  simp only [String.toList_append] at h
  have hcolon : "://".toList = ':' :: "//".toList := by decide
  rw [hcolon, List.append_assoc, List.append_assoc, List.append_assoc, List.cons_append] at h
  have hdot : '.' ∈ "//".toList ++ (store.bucket.toList ++ (".".toList ++
      ((splitOnceStr "://" rest).elim rest (·.1)).toList)) := by
    simp
  exact Url.after_ne_nil hdot (by decide) (by decide) h

theorem utf8Size_of_isAsciiHexdigit {c : Char} (h : isAsciiHexdigit c = true) :
  c.utf8Size = 1
  := by
  apply Char.utf8Size_eq_one_iff.mpr
  simp only [isAsciiHexdigit, Char.isDigit, Bool.or_eq_true, Bool.and_eq_true, decide_eq_true_eq,
    Char.le_def] at h
  obtain (h | h) | h := h
  · exact UInt32.le_trans h.2 (by decide)
  · exact UInt32.le_trans h.2 (by decide)
  · exact UInt32.le_trans h.2 (by decide)

theorem of_isObjectKey (h : isObjectKey key = true) :
  key.toList.length = 32 ∧ '/' ∉ key.toList
  := by
  rw [isObjectKey, Bool.and_eq_true, beq_iff_eq, List.all_eq_true] at h
  obtain ⟨hsize, hhex⟩ := h
  constructor
  · rw [← utf8ByteSize_eq_length, hsize]
    intro c hc
    exact utf8Size_of_isAsciiHexdigit (hhex c hc)
  · intro hslash
    cases hhex '/' hslash

/-- The segments of the path of an object: its key is at the end of the last one. -/
theorem segments_eq (store : Store) (hkey : isObjectKey key = true) :
  ∃ last, (split '/' store.keyPrefix).getLast? = some (String.ofList last) ∧
    (store.segments key).list =
      store.directories.map (fun d => segment d.toList) ++ [segment (last ++ key.toList)]
  := by
  have hclear : ∀ c ∈ key.toList, (c == '/') = false := by
    intro c hc
    apply beq_false_of_ne
    rintro rfl
    exact (of_isObjectKey hkey).2 hc
  obtain ⟨parts, last, hprefix, hobject⟩ := splitList_append_of_clear store.keyPrefix.toList hclear
  use last
  have hlist : (store.segments key).list =
      (if store.pathStyle then [segment store.bucket.toList] else []) ++
        (splitList (· == '/') (store.keyPrefix ++ key).toList).map segment := rfl
  have hmap : parts.map segment = (parts.map String.ofList).map (fun d => segment d.toList) := by
    rw [List.map_map]
    apply List.map_congr_left
    intro part _
    rw [Function.comp_apply, String.toList_ofList]
  rw [hlist, directories, split, String.toList_append, hobject, hprefix]
  constructor
  · rw [List.map_append, List.map_singleton, List.getLast?_concat]
  · have hdirectories : ((parts ++ [last]).map String.ofList).dropLast = parts.map String.ofList := by
      rw [List.map_append, List.map_singleton, List.dropLast_concat]
    rw [hdirectories, List.map_append, List.map_append, ← hmap]
    split
    · rw [List.append_assoc]
      rfl
    · rfl

/-- The path of an object has no dot segments just if neither the bucket nor a directory is one. -/
theorem clear_iff (store : Store) (hkey : isObjectKey key = true) :
  (∀ s ∈ (store.segments key).list, isDots s = false) ↔
    ∀ d ∈ store.directories, d ≠ "." ∧ d ≠ ".."
  := by
  obtain ⟨last, _, hlist⟩ := store.segments_eq hkey
  have hdots : ∀ d : String, isDots (segment d.toList) = false ↔ d ≠ "." ∧ d ≠ ".." := by
    intro d
    rw [Bool.eq_false_iff, Ne, isDots_segment, not_or, String.toList_inj, String.toList_inj]
  have hlast : isDots (segment (last ++ key.toList)) = false := by
    rw [Bool.eq_false_iff, Ne, isDots_segment]
    have hlength := (of_isObjectKey hkey).1
    rintro (h | h)
    · have hsame := congrArg List.length h
      rw [List.length_append, hlength] at hsame
      have hone : ".".toList.length = 1 := by decide
      omega
    · have hsame := congrArg List.length h
      rw [List.length_append, hlength] at hsame
      have htwo : "..".toList.length = 2 := by decide
      omega
  rw [hlist, List.forall_mem_append, List.forall_mem_map, List.forall_mem_singleton]
  simp only [hdots]
  exact and_iff_left hlast

/-- The segments of an object, without those of its bucket. -/
def objectSegments (store : Store) (key : String) : Segments where
  list := (splitList (· == '/') (store.keyPrefix ++ key).toList).map segment
  nonempty := fun h => splitList_ne_nil _ (List.map_eq_nil_iff.mp h)
  chars := by
    intro s hs c hc
    obtain ⟨part, _, rfl⟩ := List.mem_map.mp hs
    exact isSegmentChar_of_mem hc

theorem segment_ne_nil {s : String} (h : s ≠ "") :
  segment s.toList ≠ []
  := by
  intro hnil
  have hsame : s.toList = "".toList := segment_injective hnil
  exact h (String.toList_inj.mp hsame)

theorem signsRequest_iff {o : Signing × Request} (h : Requests parseHost store key o) :
  SignsRequest o ↔ o.2.url.path = store.path key
  := by
  obtain ⟨_, _, hpath, hhost⟩ := of_requests h
  rw [SignsRequest, hpath]
  constructor
  · exact fun h => h.1.symm
  · exact fun h => ⟨h.symm, hhost⟩

/-- No request is made for an object if there is no URL of the bucket. -/
theorem bucketUrl_isSome_iff {base scheme : String} {after : List Char}
    (hbase : store.base = some base) (h : splitHttp (start base.toList) = some (scheme, after))
    (hne : after ≠ []) :
  (store.bucketUrl parseHost).isSome = (store.site parseHost).isSome
  := by
  rw [bucketUrl_eq hbase, parseHttp_append h hne, Option.isSome_map, site, hbase]
  rfl

/-- The request for an object, where the text that paths are put after names a host. -/
theorem s3Url_of_ne_nil {base scheme : String} {after : List Char}
    (hbase : store.base = some base) (h : splitHttp (start base.toList) = some (scheme, after))
    (hne : after ≠ []) (key : String) :
  store.s3Url parseHost key = (store.site parseHost).map fun t =>
    ((t.append (store.segments key)).target, store.path key)
  := by
  rw [s3Url_eq hbase, parseHttp_append h hne, Option.map_map, site, hbase]
  rfl

def zeros : String :=
  "00000000000000000000000000000000"

def ones : String :=
  "11111111111111111111111111111111"

theorem isObjectKey_zeros :
  isObjectKey zeros = true
  := by
  decide +kernel

theorem isObjectKey_ones :
  isObjectKey ones = true
  := by
  decide +kernel

/-- Different objects of stores that name their buckets alike have different paths. -/
theorem path_injective {key key' : String} (hstyle : store.pathStyle = store'.pathStyle)
    (hkey : isObjectKey key = true) (hkey' : isObjectKey key' = true)
    (h : store.path key = store'.path key') :
  (store.pathStyle = true → store.bucket = store'.bucket) ∧
    store.keyPrefix = store'.keyPrefix ∧ key = key'
  := by
  rw [path_eq, path_eq] at h
  have hlists : (store.segments key).list = (store'.segments key').list := by
    apply Located.pathText_inj (store.segments key).nonempty (store'.segments key').nonempty
    · exact fun s hs c hc => Located.not_isSlash_of_mem_list hs hc
    · exact fun s hs c hc => Located.not_isSlash_of_mem_list hs hc
    · exact String.ofList_inj.mp h
  have hlist : ∀ (s : Store) key, (s.segments key).list =
      (if s.pathStyle then [segment s.bucket.toList] else []) ++ (s.objectSegments key).list :=
    fun _ _ => rfl
  have hobject : (store.objectSegments key).list = (store'.objectSegments key').list →
      store.keyPrefix = store'.keyPrefix ∧ key = key' := by
    intro hobjects
    have hparts := List.map_injective_iff.mpr (fun _ _ => segment_injective) hobjects
    have hjoined := congrArg (['/'].intercalate ·) hparts
    simp only [intercalate_splitList, String.toList_append] at hjoined
    have hlength := (of_isObjectKey hkey).1.trans (of_isObjectKey hkey').1.symm
    obtain ⟨hprefixes, hkeys⟩ := List.append_inj' hjoined hlength
    exact ⟨String.toList_inj.mp hprefixes, String.toList_inj.mp hkeys⟩
  rw [hlist, hlist, ← hstyle] at hlists
  cases hpath : store.pathStyle with
  | true =>
      rw [hpath, if_pos rfl, if_pos rfl] at hlists
      obtain ⟨hbuckets, hobjects⟩ := List.cons.inj hlists
      exact ⟨fun _ => String.toList_inj.mp (segment_injective hbuckets), hobject hobjects⟩
  | false =>
      rw [hpath, if_neg Bool.false_ne_true, if_neg Bool.false_ne_true] at hlists
      exact ⟨fun h => (by cases h), hobject hlists⟩

/-- The requests for the objects of a store are signed for what they are just if the condition
holds. -/
theorem signs_iff (hbucket : store.bucket ≠ "") :
  (∀ key o, Requests parseHost store key o → SignsRequest o) ↔ store.SignsPath parseHost
  := by
  cases hbase : store.base with
  | none =>
      apply iff_of_true
      · intro key o h
        have hurl := (of_requests h).2.1
        rw [s3Url, hbase] at hurl
        cases hurl
      · intro h
        rw [bucketUrl, hbase] at h
        cases h
  | some base =>
  cases hsplit : splitHttp (start base.toList) with
  | none =>
      apply iff_of_true
      · intro key o h
        have hurl := (of_requests h).2.1
        rw [s3Url_eq hbase, parseHttp_append_of_none hsplit] at hurl
        cases hurl
      · intro h
        rw [bucketUrl_eq hbase, parseHttp_append_of_none hsplit] at h
        cases h
  | some split =>
  obtain ⟨scheme, after⟩ := split
  by_cases hne : after = []
  · -- the bucket is taken for the host
    subst hne
    have hstyle : store.pathStyle = true := by
      cases hstyle : store.pathStyle with
      | true => rfl
      | false => exact absurd rfl (after_ne_nil hbase hstyle hsplit)
    have hlist : ∀ key, (store.segments key).list =
        segment store.bucket.toList :: (store.objectSegments key).list := by
      intro key
      change (if store.pathStyle then _ else _) ++ _ = _
      rw [hstyle, if_pos rfl]
      rfl
    have hroot : store.root.list = segment store.bucket.toList :: emptySegments.list := by
      change (if store.pathStyle then _ else _) ++ _ = _
      rw [hstyle, if_pos rfl]
      rfl
    have hurl := fun key => @parseHttp_append_of_nil parseHost _ _ _ _ hsplit _ (hlist key)
      (segment_ne_nil hbucket)
    have hbucketUrl := @parseHttp_append_of_nil parseHost _ _ _ _ hsplit _ hroot
      (segment_ne_nil hbucket)
    have hsite : store.site parseHost = none := by
      rw [site, hbase, Option.bind_some, locate, hsplit]
      rfl
    rw [SignsPath, bucketUrl_eq hbase, hbucketUrl, hsite, Option.isSome_map]
    cases hlocate : locateIn parseHost scheme (segment store.bucket.toList) with
    | none =>
        apply iff_of_true
        · intro key o h
          have hnone := (of_requests h).2.1
          rw [s3Url_eq hbase, hurl, hlocate] at hnone
          cases hnone
        · intro h
          cases h
    | some t =>
        apply iff_of_false
        · intro h
          have hrequest := @s3Url_eq parseHost store base hbase zeros
          rw [hurl, hlocate] at hrequest
          obtain ⟨o, ho, _⟩ := requests_of_s3Url isObjectKey_zeros hrequest
          have hsame := (of_requests ho).2.1
          rw [hrequest] at hsame
          have hpath := (signsRequest_iff ho).mp (h _ o ho)
          have htail : t.tail = [] := by
            apply tail_of_locateIn (p := store.segments zeros) hlocate
            rw [hlist]
            exact List.mem_cons_self
          rw [← (Prod.mk.inj (Option.some.inj hsame)).1, path_eq] at hpath
          change String.ofList (pathText (resolve [] (Url.segments (t.tail ++ _)))) = _ at hpath
          rw [htail, List.nil_append] at hpath
          exact Located.path_tail_ne (hlist zeros) (String.ofList_inj.mp hpath)
        · intro h
          obtain ⟨site, hnone, _⟩ := h rfl
          cases hnone
  · cases hsite : store.site parseHost with
    | none =>
        apply iff_of_true
        · intro key o h
          have hurl := (of_requests h).2.1
          rw [s3Url_of_ne_nil hbase hsplit hne, hsite] at hurl
          cases hurl
        · intro h
          rw [bucketUrl_isSome_iff hbase hsplit hne, hsite] at h
          cases h
    | some t =>
        have hurl : ∀ key, store.s3Url parseHost key =
            some ((t.append (store.segments key)).target, store.path key) := by
          intro key
          rw [s3Url_of_ne_nil hbase hsplit hne, hsite]
          rfl
        have hpath : ∀ key o, Requests parseHost store key o → (SignsRequest o ↔
            pathText (resolve [] (Url.segments (t.append (store.segments key)).tail)) =
              (store.segments key).text) := by
          intro key o h
          obtain ⟨_, hsame, _⟩ := of_requests h
          rw [hurl] at hsame
          rw [signsRequest_iff h, ← (Prod.mk.inj (Option.some.inj hsame)).1, path_eq]
          exact String.ofList_inj
        rw [SignsPath, bucketUrl_isSome_iff hbase hsplit hne, hsite]
        by_cases hopen : t.IsOpen
        · constructor
          · intro h _
            obtain ⟨o, ho, _⟩ := requests_of_s3Url isObjectKey_zeros (hurl _)
            obtain ⟨hdirectories, hclear⟩ :=
              (Located.path_append_iff hopen _).mp ((hpath _ o ho).mp (h _ o ho))
            exact ⟨t, rfl, hopen, hdirectories, (store.clear_iff isObjectKey_zeros).mp hclear⟩
          · intro h key o ho
            obtain ⟨t', ht, _, hdirectories, hclear⟩ := h rfl
            obtain rfl := Option.some.inj ht
            have hkey := (of_requests ho).1
            exact (hpath _ o ho).mpr ((Located.path_append_iff hopen _).mpr
              ⟨hdirectories, (store.clear_iff hkey).mpr hclear⟩)
        · constructor
          · intro h
            -- the path of the URL does not depend on the key
            obtain ⟨o, ho, _⟩ := requests_of_s3Url isObjectKey_zeros (hurl _)
            obtain ⟨o', ho', _⟩ := requests_of_s3Url isObjectKey_ones (hurl _)
            have hzeros := (hpath _ o ho).mp (h _ o ho)
            have hones := (hpath _ o' ho').mp (h _ o' ho')
            have hsame : store.path zeros = store.path ones := by
              rw [path_eq, path_eq, ← hzeros, ← hones]
              change String.ofList (pathText (resolve [] (Url.segments (t.tail ++ _)))) =
                String.ofList (pathText (resolve [] (Url.segments (t.tail ++ _))))
              rw [Located.segments_append_of_not_isOpen hopen,
                Located.segments_append_of_not_isOpen hopen]
            have hkeys := (path_injective rfl isObjectKey_zeros isObjectKey_ones hsame).2.2
            exact absurd hkeys (by decide)
          · intro h
            obtain ⟨t', ht, hopen', _⟩ := h rfl
            obtain rfl := Option.some.inj ht
            exact absurd hopen' hopen

theorem of_mediaStore {endpoint bucket region keyPrefix accessKey secretKey : String}
    {pathStyle : Bool}
    (h : mediaStore endpoint bucket region keyPrefix accessKey secretKey pathStyle = some store) :
  store.endpoint = trimEndMatches '/' endpoint ∧ store.bucket ≠ "" ∧ store.pathStyle = pathStyle
  := by
  rw [mediaStore] at h
  split at h
  · cases h
  · rename_i hcomplete
    obtain rfl := Option.some.inj h
    exact ⟨rfl, fun hbucket => hcomplete (.inr (.inl hbucket)), rfl⟩

/-- Where buckets are named in the host, the URL of an object is at the host that is named. -/
theorem s3Url_of_virtual (hstyle : store.pathStyle = false) (key : String) :
  store.s3Url parseHost key = (store.site parseHost).map fun t =>
    ((t.append (store.segments key)).target, store.path key)
  := by
  cases hbase : store.base with
  | none =>
      rw [s3Url, site, hbase]
      rfl
  | some base =>
      cases hsplit : splitHttp (start base.toList) with
      | none =>
          rw [s3Url_eq hbase, parseHttp_append_of_none hsplit, site, hbase, Option.bind_some, locate,
            hsplit]
          rfl
      | some split =>
          obtain ⟨scheme, after⟩ := split
          exact s3Url_of_ne_nil hbase hsplit (after_ne_nil hbase hstyle hsplit) key

theorem site_of_requests (hstyle : store.pathStyle = false) {o : Signing × Request}
    (h : Requests parseHost store key o) :
  ∃ t, store.site parseHost = some t ∧ o.2.url = (t.append (store.segments key)).target
  := by
  have hurl := (of_requests h).2.1
  rw [s3Url_of_virtual hstyle] at hurl
  obtain ⟨t, ht, hsame⟩ := Option.map_eq_some_iff.mp hurl
  exact ⟨t, ht, (Prod.mk.inj hsame).1.symm⟩

theorem request_of_site (hstyle : store.pathStyle = false) {t : Located}
    (h : store.site parseHost = some t) (hkey : isObjectKey key = true) :
  ∃ o, Requests parseHost store key o ∧ o.2.url = (t.append (store.segments key)).target
  := by
  have hurl := @s3Url_of_virtual parseHost store hstyle key
  rw [h] at hurl
  obtain ⟨o, ho, _, hsame⟩ := requests_of_s3Url hkey hurl
  exact ⟨o, ho, hsame⟩

/-- Requests that are signed for what they are go to different places just if buckets that are
named in the host are different hosts. -/
theorem apart_iff (hstyle : store.pathStyle = store'.pathStyle)
    (hsigns : ∀ key o, Requests parseHost store key o → SignsRequest o)
    (hsigns' : ∀ key o, Requests parseHost store' key o → SignsRequest o) :
  (∀ key key' o o', Requests parseHost store key o → Requests parseHost store' key' o' →
    (store.bucket, store.keyPrefix, key) ≠ (store'.bucket, store'.keyPrefix, key') →
      address o ≠ address o') ↔ store.HostsApart parseHost store'
  := by
  constructor
  · intro h hvirtual hbuckets hprefixes t t' ht ht'
    obtain ⟨o, ho, hurl⟩ := request_of_site hvirtual ht isObjectKey_zeros
    obtain ⟨o', ho', hurl'⟩ := request_of_site (hstyle ▸ hvirtual) ht' isObjectKey_zeros
    have hne := h _ _ o o' ho ho' fun hsame => hbuckets (Prod.mk.inj hsame).1
    have hpath : o.2.url.path = o'.2.url.path := by
      rw [(signsRequest_iff ho).mp (hsigns _ o ho), (signsRequest_iff ho').mp (hsigns' _ o' ho'),
        Store.path, Store.path, ← hstyle, hvirtual, hprefixes]
      rfl
    intro hhosts
    obtain ⟨hhost, hport⟩ := Prod.mk.inj hhosts
    apply hne
    rw [address, address, hpath, hurl, hurl']
    change (t.host, t.port, _) = (t'.host, t'.port, _)
    rw [hhost, hport]
  · intro h key key' o o' ho ho' hne haddress
    have hpath : store.path key = store'.path key' := by
      rw [← (signsRequest_iff ho).mp (hsigns _ o ho), ← (signsRequest_iff ho').mp (hsigns' _ o' ho')]
      exact (Prod.mk.inj (Prod.mk.inj haddress).2).2
    obtain ⟨hbuckets, hprefixes, hkeys⟩ :=
      path_injective hstyle (of_requests ho).1 (of_requests ho').1 hpath
    have hbucket : store.bucket ≠ store'.bucket := by
      intro hsame
      apply hne
      rw [hsame, hprefixes, hkeys]
    cases hvirtual : store.pathStyle with
    | true => exact hbucket (hbuckets hvirtual)
    | false =>
        obtain ⟨t, ht, hurl⟩ := site_of_requests hvirtual ho
        obtain ⟨t', ht', hurl'⟩ := site_of_requests (hstyle ▸ hvirtual) ho'
        apply h hvirtual hbucket hprefixes t t' ht ht'
        rw [address, address, hurl, hurl'] at haddress
        obtain ⟨hhost, hrest⟩ := Prod.mk.inj haddress
        have hport := (Prod.mk.inj hrest).1
        exact Prod.ext hhost hport

end Store

/-- For every configuration that the program can be started with, every request is signed for the
path and the host that it goes to, and requests for different objects go to different places, just
if the endpoint, the buckets and the prefixes are as said. -/
theorem s3_faithful_iff (parseHost : List Char → Option String) {endpoint : String} {pathStyle : Bool}
    {bucket region keyPrefix accessKey secretKey : String}
    {bucket' region' keyPrefix' accessKey' secretKey' : String} {store store' : Store}
    (hstore : mediaStore endpoint bucket region keyPrefix accessKey secretKey pathStyle = some store)
    (hstore' : mediaStore endpoint bucket' region' keyPrefix' accessKey' secretKey' pathStyle =
      some store') :
  Faithful parseHost store store' ↔
    store.SignsPath parseHost ∧ store'.SignsPath parseHost ∧ store.HostsApart parseHost store'
  := by
  obtain ⟨_, hbucket, hstyle⟩ := Store.of_mediaStore hstore
  obtain ⟨_, hbucket', hstyle'⟩ := Store.of_mediaStore hstore'
  have hsame := hstyle.trans hstyle'.symm
  constructor
  · intro h
    exact ⟨(Store.signs_iff hbucket).mp h.signs, (Store.signs_iff hbucket').mp h.signs',
      (Store.apart_iff hsame h.signs h.signs').mp h.apart⟩
  · rintro ⟨h, h', hapart⟩
    have hsigns := (Store.signs_iff hbucket).mpr h
    have hsigns' := (Store.signs_iff hbucket').mpr h'
    exact ⟨hsigns, hsigns', (Store.apart_iff hsame hsigns hsigns').mpr hapart⟩

/-! ### An endpoint with a path -/

/-- A host as it is decoded that is written plainly. -/
def plainHost (host : List Char) : Option String :=
  some (toAsciiLowercase (String.ofList host))

/-- A store behind a gateway, at a path of it. -/
def gateway : Store :=
  s3 "https://gw.example/s3" "media" "us-east-1" "" "id" "secret" true

/-- The path of the endpoint is requested, and is not signed. -/
theorem gateway_signs_another_path :
  mediaStore "https://gw.example/s3" "media" "us-east-1" "" "id" "secret" true = some gateway ∧
    ¬ Faithful plainHost gateway gateway
  := by
  constructor
  · rfl
  intro h
  have hurl : gateway.s3Url plainHost Store.zeros = some
      (⟨"https", "gw.example", none, "/s3/media/00000000000000000000000000000000", none⟩,
        gateway.path Store.zeros) := by
    decide +kernel
  obtain ⟨o, ho, _, hsame⟩ := Store.requests_of_s3Url Store.isObjectKey_zeros hurl
  have hpath := (Store.signsRequest_iff ho).mp (h.signs _ o ho)
  rw [hsame] at hpath
  have hne : "/s3/media/00000000000000000000000000000000" ≠ gateway.path Store.zeros := by
    decide +kernel
  exact hne hpath

/-- A store at an endpoint without a path. -/
def selfHosted : Store :=
  s3 "https://s3.example:9000/" "media" "us-east-1" "noombat/" "id" "secret" true

theorem s3_faithful_selfHosted :
  Faithful plainHost selfHosted selfHosted
  := by
  have hstarted : mediaStore "https://s3.example:9000/" "media" "us-east-1" "noombat/" "id" "secret"
      true = some selfHosted := rfl
  apply (s3_faithful_iff plainHost hstarted hstarted).mpr
  have hsite : (selfHosted.site plainHost).map (fun t => (t.tail, t.directories)) = some ([], []) := by
    decide +kernel
  obtain ⟨t, ht, htail⟩ := Option.map_eq_some_iff.mp hsite
  obtain ⟨hnil, hdirectories⟩ := Prod.mk.inj htail
  have hsigns : selfHosted.SignsPath plainHost := by
    intro _
    refine ⟨t, ht, ?_, hdirectories, ?_⟩
    · intro c hc
      rw [hnil] at hc
      cases hc
    · decide +kernel
  exact ⟨hsigns, hsigns, fun h => (by cases h)⟩

end Media.ObjectStore
