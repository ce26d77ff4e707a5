import Noombat.Api.Audience
import Noombat.Federation.Commitment

/-!
# The document of a post

What is served of a local post is the object that was published, with the entries that it
lacks filled in.  The context and the identifier are there when the object is signed, and are
left alone; the `url` is not, and is filled in, so that the proof of the object is not that of
what is served.
-/

namespace Api

open Authorisation (postVisibleTo)
open Federation (Uuid DateTime NoombatError Actor Post SigningExternal defaultContext
  assign signAsActor selectProof signatureVerifies verify publicMultibase
  decodePrivateKeyBase64)
open Fallible Program

/-! ### Serving -/

/-- Set an entry of an object that lacks it. -/
def fill (lacks : Json → Bool) (key : String) (value obj : Json) : Option Json :=
  if lacks obj then assign key obj value else some obj

/-- The object of a post with what it lacks filled in.  There is none if the program panics,
which it does where what is stored is no object. -/
def servedObject (domain username : String) (row : Post) : Option Json := do
  let inner := (row.apObject.get "object").getD row.apObject
  let obj ← fill (fun o => (o.get "@context").isNone) "@context" defaultContext inner
  let obj ← fill (fun o => o.getStr "id" != some row.apId) "id" (.str row.apId) obj
  fill (fun o => (o.get "url").isNone) "url"
    (.str s!"https://{domain}/@{username}/posts/{row.id}") obj

/-- Serve a post to a viewer who asks for its ActivityPub document. -/
def getPost (domain : String) (viewer : Option Viewer) (username : String) (postId : Uuid) :
    Route (Option Json) := do
  let row ← sql (.postPage postId username)
  let (row, name) ← okOr (.notFound "post" postId) row
  let viewerId := viewer.map (·.actorId)
  let relationship ← connecting (Connections.relationship viewerId row.actorId)
  if postVisibleTo row.visibility viewerId row.actorId relationship then
    return servedObject domain name row
  else throw (.notFound "post" postId)

/-! ### What is filled in -/

section Served

variable {domain username : String} {row : Post} {object served j j' value : Json} {key : String}

theorem get_assign (h : assign key j value = some j') :
  j'.get key = some value ∧ ∀ name, name ≠ key → j'.get name = j.get name
  := by
  cases j with
  | null =>
      obtain rfl := Option.some.inj h
      constructor
      · simp
      · intro name hname
        have hother : (name == key) = false := by simp [hname]
        rw [Json.get_obj, List.lookup_cons, hother]
        rfl
  | obj fields =>
      obtain rfl := Option.some.inj h
      exact ⟨Json.get_insert_self rfl, fun name hname => Json.get_insert_of_ne hname _ _⟩
  | _ => cases h

theorem get_fill {lacks : Json → Bool} (h : fill lacks key value j = some j') {name : String}
    (hname : name ≠ key) :
  j'.get name = j.get name
  := by
  rw [fill] at h
  split_ifs at h
  · exact (get_assign h).2 name hname
  · rw [Option.some.inj h]

theorem fill_object (lacks : Json → Bool) (key : String) (value : Json)
    (h : j.isObject = true) :
  ∃ j', fill lacks key value j = some j' ∧ j'.isObject = true
  := by
  rw [fill]
  split
  · exact ⟨_, Federation.assign_of_isObject h, (Json.isObject_insert _ _ _).trans h⟩
  · exact ⟨j, rfl, h⟩

/-- What is served has a `url`, and the proof of the stored object. -/
theorem get_servedObject (hobject : row.apObject.get "object" = some object)
    (h : servedObject domain username row = some served) :
  (served.get "url").isSome = true ∧ served.get "proof" = object.get "proof"
  := by
  rw [servedObject, hobject] at h
  obtain ⟨contextual, hcontextual, h⟩ := Option.bind_eq_some_iff.mp h
  obtain ⟨identified, hidentified, h⟩ := Option.bind_eq_some_iff.mp h
  constructor
  · rw [fill] at h
    split_ifs at h with hurl
    · rw [(get_assign h).1]
      rfl
    · obtain rfl := Option.some.inj h
      simpa [Option.isSome_iff_ne_none] using hurl
  · rw [get_fill h (by decide), get_fill hidentified (by decide),
      get_fill hcontextual (by decide)]
    rfl

/-- An object can be served. -/
theorem servedObject_of_isObject (domain username : String)
    (hobject : row.apObject.get "object" = some object) (h : object.isObject = true) :
  ∃ served, servedObject domain username row = some served
  := by
  rw [servedObject, hobject]
  obtain ⟨contextual, hcontextual, hobj⟩ :=
    fill_object (fun o => (o.get "@context").isNone) "@context" defaultContext h
  obtain ⟨identified, hidentified, hobj'⟩ :=
    fill_object (fun o => o.getStr "id" != some row.apId) "id" (.str row.apId) hobj
  obtain ⟨served, hserved, _⟩ := fill_object (fun o => (o.get "url").isNone) "url"
    (.str s!"https://{domain}/@{username}/posts/{row.id}") hobj'
  use served
  rw [Option.getD_some, Option.bind_eq_bind, hcontextual, Option.bind_some, hidentified, Option.bind_some, hserved]

end Served

/-! ### The document that is signed -/

section Signed

variable {ext : SigningExternal} {document : LocalPost} {actorApId : String} {signedAt : DateTime}
  {object : Json}

/-- The document before it is signed has neither a proof nor a `url`. -/
theorem get_document_none {key : String} (h : key = "proof" ∨ key = "url") :
  (document.document actorApId).get key = none
  := by
  rw [LocalPost.document, Json.get_obj, List.lookup_eq_none_iff]
  -- the names of the entries, those that are always there and those that may be
  have hnames : ∀ name ∈ ["@context", "id", "type", "attributedTo", "content", "source", "to", "cc",
      "tag", "published", "name", "image", "inReplyTo", "attachment", "sensitive"],
      (key != name) = true := by
    obtain rfl | rfl := h
    · decide
    · decide
  intro f hf
  apply hnames
  simp only [List.mem_append, List.mem_map, Option.mem_toList] at hf
  obtain ((((hf | ⟨_, _, rfl⟩) | ⟨_, _, rfl⟩) | ⟨_, _, rfl⟩) | hf) | hf := hf
  · simp only [List.mem_cons, List.not_mem_nil, or_false] at hf
    obtain rfl | rfl | rfl | rfl | rfl | rfl | rfl | rfl | rfl | rfl := hf
    all_goals simp
  · simp
  · simp
  · simp
  · split at hf
    · cases hf
    · obtain rfl := List.mem_singleton.mp hf
      simp
  · split at hf
    · obtain rfl := List.mem_singleton.mp hf
      simp
    · cases hf

theorem length_of_decodePrivateKeyBase64 {base64 : String} {signingKey : Bytes}
    (h : decodePrivateKeyBase64 ext base64 = .ok signingKey) :
  signingKey.length = 32
  := by
  rw [decodePrivateKeyBase64] at h
  split at h
  · cases h
  · split at h
    · cases h
      assumption
    · cases h

theorem isObject_of_selectProof {proof : Json} (h : selectProof object = some proof) :
  object.isObject = true
  := by
  cases hproof : object.get "proof" with
  | none =>
      rw [selectProof, hproof] at h
      cases h
  | some value => exact Json.isObject_of_get hproof

/-- An object with a proof is the document as signed with the key of its author, and its proof
verifies for it. -/
theorem signedDocument_signed (hlawful : ext.Lawful) {key : Option String}
    (hobject : document.signedDocument ext signedAt actorApId key = object)
    (hsigned : (selectProof object).isSome = true) :
  ∃ base64 signingKey proof, key = some base64 ∧
    decodePrivateKeyBase64 ext base64 = .ok signingKey ∧ object.isObject = true ∧
    object.get "url" = none ∧ selectProof object = some proof ∧
    signatureVerifies ext.toExternal object proof (publicMultibase ext signingKey) = true
  := by
  have hunproven : ∀ j : Json, j.get "proof" = (document.document actorApId).get "proof" →
      (selectProof j).isSome = false := by
    intro j hj
    rw [get_document_none (.inl rfl)] at hj
    rw [selectProof, hj]
    rfl
  cases key with
  | none =>
      rw [← hobject, LocalPost.signedDocument, hunproven _ rfl] at hsigned
      cases hsigned
  | some base64 =>
      rw [LocalPost.signedDocument] at hobject
      cases hresult : signAsActor ext signedAt (document.document actorApId) base64 actorApId with
      | none =>
          rw [hresult] at hobject
          rw [← hobject, Option.elim_none, hunproven _ rfl] at hsigned
          cases hsigned
      | some result =>
          obtain ⟨made, signed⟩ := result
          rw [hresult] at hobject
          obtain rfl : signed = object := hobject
          cases hmade : made with
          | false =>
              rw [hmade] at hresult
              rw [hunproven _ (Federation.get_signAsActor rfl hresult (by decide) fun _ => rfl)]
                at hsigned
              cases hsigned
          | true =>
              rw [hmade] at hresult
              have hurl : signed.get "url" = none := by
                rw [Federation.get_signAsActor rfl hresult (by decide) (by simp)]
                exact get_document_none (.inr rfl)
              cases hkey : decodePrivateKeyBase64 ext base64 with
              | error e =>
                  rw [signAsActor, hkey] at hresult
                  cases hresult
              | ok signingKey =>
                  obtain ⟨method, hsign⟩ :=
                    (Federation.Signs.asActor signedAt base64 actorApId hkey hresult).standard
                  obtain ⟨proof, hproof, hverifies, _⟩ := Federation.signed_signatureVerifies
                    hlawful (length_of_decodePrivateKeyBase64 hkey) rfl rfl rfl hsign
                  exact ⟨base64, signingKey, proof, rfl, hkey, isObject_of_selectProof hproof,
                    hurl, hproof, hverifies⟩

end Signed

/-! ### What a reader is served -/

section Reader

variable {domain username : String} {db : Db} {row : Post} {object : Json}

/-- What is served is the object of the post that is asked for. -/
theorem wp_getPost {C : Condition apiWorld} (viewer : Option Viewer) (postId : Uuid) :
  wp apiWorld C
    (fun result _ => ∀ served, result = .ok (some served) →
      ∃ row ∈ db.posts, row.id = postId ∧ ∃ name, servedObject domain name row = some served)
    (getPost domain viewer username postId).run db
  := by
  rw [getPost, wp_run_bind]
  apply wp_sql (.postPage postId username)
  · intro e served hserved
    cases hserved
  rw [ApiSql.exec, onExcept_ok, wp_run_bind, wp_okOr]
  cases hpage : db.postPage postId username with
  | none =>
      intro served hserved
      cases hserved
  | some page =>
      obtain ⟨row, name⟩ := page
      obtain ⟨row', hrow, hpage⟩ := Option.bind_eq_some_iff.mp hpage
      obtain ⟨author, _, hpage⟩ := Option.bind_eq_some_iff.mp hpage
      cases hpage
      have hid : row.id = postId := by
        simpa using Table.satisfies_of_find hrow
      rw [Option.elim_some, onExcept_ok, wp_run_bind]
      apply wp_mono _ (wp_true _ _)
      rintro (e | relationship) db' _
      · intro served hserved
        cases hserved
      rw [onExcept_ok]
      split
      · rw [wp_run_pure]
        intro served hserved
        exact ⟨row, Table.mem_of_find hrow, hid, author.username,
          Except.ok.inj hserved⟩
      · rw [wp_run_throw]
        intro served hserved
        cases hserved

/-- No statement of a route fails. -/
def Unfailing : Condition apiWorld :=
  fun q c _ =>
    match q, c with
    | .sql _, (c : Option NoombatError) => c = none
    | _, _ => True

theorem wp_sql_unfailing (s : ApiSql) {Post : Except NoombatError s.Result → Db → Prop}
    (h : Post (s.exec db).1 (s.exec db).2) :
  wp apiWorld Unfailing Post (sql s).run db
  := by
  apply (wp_request (ApiRequest.sql s) Post).mpr
  rintro (_ | e) hc
  · exact h
  · cases hc

theorem postPage_eq (hrow : row ∈ db.posts) {author : Actor} (hauthor : author ∈ db.actors)
    (hid : row.actorId = author.id) :
  db.postPage row.id author.username = some (row, author.username)
  := by
  have hpost : db.posts.find (·.id == row.id) = some row := by
    apply Table.find_eq_some hrow
    · simp
    · intro row' hrow' hsame
      exact Federation.Core.post_eq_of_id hrow' hrow (by simpa using hsame)
  have hactor : db.actors.find (fun a => a.id == row.actorId && a.username == author.username) =
      some author := by
    apply Table.find_eq_some hauthor
    · simp [hid]
    · intro a ha hsame
      simp only [Bool.and_eq_true, beq_iff_eq] at hsame
      exact Federation.Core.actor_eq_of_id ha hauthor (hsame.1.trans hid)
  rw [Db.postPage, hpost, Option.bind_eq_bind, Option.bind_some, hactor]
  rfl

/-- The author is served the object of a post, if no statement fails. -/
theorem getPost_author (domain : String) (hrow : row ∈ db.posts) {author : Actor}
    (hauthor : author ∈ db.actors) (hid : row.actorId = author.id)
    (hobject : row.apObject.get "object" = some object) (h : object.isObject = true) :
  ∃ served, (run apiWorld undisturbed
    (getPost domain (some ⟨author.id⟩) author.username row.id).run db).1 = .ok (some served)
  := by
  obtain ⟨served, hserved⟩ := servedObject_of_isObject domain author.username hobject h
  have hunfailing : ∀ n q s, Unfailing q (undisturbed n q) s := by
    intro n q s
    cases q <;> trivial
  have hwp : wp apiWorld Unfailing (fun result _ => result = .ok (some served))
      (getPost domain (some ⟨author.id⟩) author.username row.id).run db := by
    rw [getPost, wp_run_bind]
    apply wp_sql_unfailing (.postPage row.id author.username)
    rw [ApiSql.exec, postPage_eq hrow hauthor hid, onExcept_ok, wp_run_bind, wp_okOr,
      Option.elim_some, onExcept_ok, wp_run_bind]
    rw [Option.map_some, Connections.relationship, if_pos hid.symm, connecting, run_embed, run_pure,
      embed_done, wp_done, onExcept_ok, hid, Authorisation.postVisibleTo_author, if_pos rfl,
      wp_run_pure, hserved]
  use served
  exact wp_run hwp (alongFrom_of_script hunfailing 0 _ db)

end Reader

/-- The proof of an object without a `url` does not verify for one that has one. -/
theorem served_unverified {ext : Federation.External} {key : String} {object served proof : Json}
    (hfilled : (served.get "url").isSome = true)
    (hsame : served.get "proof" = object.get "proof") (hurl : object.get "url" = none)
    (hproof : selectProof object = some proof)
    (hverifies : signatureVerifies ext object proof key = true)
    (hideal : ext.Distinguishes object served proof) (clock : Federation.Clock) :
  verify ext clock served key ≠ .valid
  := by
  intro hvalid
  obtain ⟨proof', hproof', _, hverifies', _⟩ := (Federation.verify_valid_iff ext).mp hvalid
  have hselected : selectProof served = selectProof object := by
    rw [selectProof, selectProof, hsame]
  rw [hselected, hproof] at hproof'
  obtain rfl := Option.some.inj hproof'
  have hentries := (Federation.same_of_signatureVerifies hideal hverifies hverifies').get "url"
  rw [Json.get_remove_of_ne (by decide), Json.get_remove_of_ne (by decide), hurl] at hentries
  obtain ⟨url, hset⟩ := Option.isSome_iff_exists.mp hfilled
  rw [hset] at hentries
  cases hentries

/-- Of a publication whose object is signed, the object is there to be served to its author at
once; and from any database in which a post has it, whoever is served it, the key of the author
does not verify what is served. -/
theorem getPost_unverified (ext : PublishingExternal) (domain : String) {db : Db}
    (script : Script apiWorld) (viewer : Option Viewer) (username : String)
    (body : OutboxPostBody) {answer : StatusCode × Json} {object : Json}
    (hlawful : ext.toSigningExternal.Lawful)
    (hdone : (run apiWorld script (postOutbox ext domain viewer username body).run db).1 =
      .ok answer)
    (hobject : answer.2.get "object" = some object)
    (hsigned : (selectProof object).isSome = true) :
    let ended := (run apiWorld script (postOutbox ext domain viewer username body).run db).2
  ∃ author post base64 signingKey,
    db.actors.find (fun a => a.username == username && a.isLocal) = some author ∧
    author.ed25519PrivateKey = some base64 ∧
    decodePrivateKeyBase64 ext.toSigningExternal base64 = .ok signingKey ∧
    post ∈ ended.posts ∧ post.actorId = author.id ∧ post.apObject = answer.2 ∧
    (∃ served, (run apiWorld undisturbed
      (getPost domain (some ⟨author.id⟩) username post.id).run ended).1 = .ok (some served)) ∧
    ∀ (later : Db) (row : Post), row ∈ later.posts → row.apObject = answer.2 →
      ∀ (reading : Script apiWorld) (reader : Option Viewer) (name : String) (served : Json),
        (run apiWorld reading (getPost domain reader name row.id).run later).1 =
          .ok (some served) →
        (∀ proof, selectProof object = some proof →
          ext.toExternal.Distinguishes object served proof) →
        ∀ clock, verify ext.toExternal clock served
          (publicMultibase ext.toSigningExternal signingKey) ≠ .valid
  := by
  intro ended
  obtain ⟨author, post, found, new, h, _⟩ := exists_published hdone
  obtain ⟨document, signedAt, hdocument, _, _⟩ := h.document
  have hbuilt : document.signedDocument ext.toSigningExternal signedAt author.apId
      author.ed25519PrivateKey = object := by
    rw [hdocument] at hobject
    exact Option.some.inj hobject
  obtain ⟨base64, signingKey, proof, hkey, hdecoded, hobj, hurl, hproof, hverifies⟩ :=
    signedDocument_signed hlawful hbuilt hsigned
  have hpost : post ∈ ended.posts := (h.posts post).mpr (.inl rfl)
  refine ⟨author, post, base64, signingKey, h.authored, hkey, hdecoded, hpost, h.actorId,
    h.apObject, ?_, ?_⟩
  · have hname := Table.satisfies_of_find h.authored
    simp only [Bool.and_eq_true, beq_iff_eq] at hname
    have hauthor : author ∈ ended.actors := by
      rw [h.actors]
      exact Table.mem_of_find h.authored
    rw [← hname.1]
    apply getPost_author domain hpost hauthor h.actorId _ hobj
    rw [h.apObject]
    exact hobject
  · intro later row hrow hstored reading reader name served hserved hideal clock
    obtain ⟨row', hrow', hid, name', hfilled⟩ :=
      wp_run_always (wp_getPost reader row.id) served hserved
    obtain rfl := Federation.Core.post_eq_of_id hrow' hrow hid
    rw [← hstored] at hobject
    obtain ⟨hset, hsame⟩ := get_servedObject hobject hfilled
    exact served_unverified hset hsame hurl hproof hverifies (hideal proof hproof) clock

/-! ### A note whose proof does not verify -/

/-- Libraries whose hashes are lengths, and whose signatures are the messages. -/
def PublishingExternal.echoing : PublishingExternal :=
  { PublishingExternal.plain with
    sha256 bytes := List.replicate 31 0 ++ [UInt8.ofNat bytes.length]
    ed25519Sign _ message := (message ++ List.replicate 64 0).take 64
    ed25519Verify _ message signature := signature == (message ++ List.replicate 64 0).take 64 }

/-- Al, who has a key. -/
def alWithKey : Db :=
  .ofFederation (Federation.dbOf [
    { Actor.localUser "https://h.ex/users/al" "al" with
      ed25519PrivateKey := some "kkkkkkkkkkkkkkkkkkkkkkkkkkkkkkkk" }])

/-- Al publishes a note for anyone. -/
def alSigns : Except NoombatError (StatusCode × Json) × Db :=
  run apiWorld undisturbed (postOutbox .echoing "h.ex" (some ⟨1⟩) "al" (noteFor "public")).run
    alWithKey

/-- The object that Al has published. -/
def signedNote : Json :=
  ((alSigns.1.toOption.bind fun answer => answer.2.get "object").getD .null)

/-- What anyone is served of it. -/
def servedNote : Json :=
  ((run apiWorld undisturbed (getPost "h.ex" none "al" 2).run alSigns.2).1.toOption.bind id).getD
    .null

/-- The proof of the note. -/
def noteProof : Json :=
  (selectProof signedNote).getD .null

theorem selectProof_signedNote :
  selectProof signedNote = some noteProof
  := rfl

theorem echoing_lawful :
  PublishingExternal.echoing.Lawful
  := by
  constructor
  · exact SigningExternal.plain_lawful.base58
  · exact SigningExternal.plain_lawful.publicKey_length
  · exact SigningExternal.plain_lawful.publicKey_valid
  · intro key message _
    simp [PublishingExternal.echoing]
  · intro key message _
    simp [PublishingExternal.echoing]

/-- The last byte of the hash of a canonical text. -/
def hashedByte (j : Json) : UInt8 :=
  UInt8.ofNat j.render.utf8ByteSize

theorem sha256_render (j : Json) :
  PublishingExternal.echoing.sha256 (Text.asBytes j.render) =
    List.replicate 31 0 ++ [hashedByte j]
  := by
  rw [hashedByte, ← Text.length_asBytes]
  rfl

/-- What is canonicalised of the note and of what is served of it: one configuration and two
documents. -/
theorem canonicalised_notes {j : Json}
    (h : j ∈ Federation.canonicalised signedNote noteProof ++
      Federation.canonicalised servedNote noteProof) :
  (j = Federation.proofConfig signedNote noteProof ∧ hashedByte j = 44) ∨
    (j = signedNote.remove "proof" ∧ hashedByte j = 158) ∨
    (j = servedNote.remove "proof" ∧ hashedByte j = 191)
  := by
  have hconfig : Federation.proofConfig servedNote noteProof =
      Federation.proofConfig signedNote noteProof := rfl
  have hbytes : hashedByte (Federation.proofConfig signedNote noteProof) = 44 ∧
      hashedByte (signedNote.remove "proof") = 158 ∧
      hashedByte (servedNote.remove "proof") = 191 := by
    decide +kernel
  rw [Federation.canonicalised, Federation.canonicalised, hconfig] at h
  simp only [List.mem_append, List.mem_cons, List.not_mem_nil, or_false] at h
  obtain (rfl | rfl) | rfl | rfl := h
  · exact .inl ⟨rfl, hbytes.1⟩
  · exact .inr (.inl ⟨rfl, hbytes.2.1⟩)
  · exact .inl ⟨rfl, hbytes.1⟩
  · exact .inr (.inr ⟨rfl, hbytes.2.2⟩)

/-- On the note and what is served of it, the libraries are ideal. -/
theorem echoing_distinguishes :
  PublishingExternal.echoing.Distinguishes signedNote servedNote noteProof
  := by
  have hsame : ∀ j ∈ Federation.canonicalised signedNote noteProof ++
      Federation.canonicalised servedNote noteProof,
      ∀ j' ∈ Federation.canonicalised signedNote noteProof ++
        Federation.canonicalised servedNote noteProof, hashedByte j = hashedByte j' → j = j' := by
    intro j hj j' hj' heq
    obtain ⟨rfl, hbyte⟩ | ⟨rfl, hbyte⟩ | ⟨rfl, hbyte⟩ := canonicalised_notes hj
    all_goals
      obtain ⟨rfl, hbyte'⟩ | ⟨rfl, hbyte'⟩ | ⟨rfl, hbyte'⟩ := canonicalised_notes hj'
      all_goals
        first
          | rfl
          | exact absurd (hbyte.symm.trans (heq.trans hbyte')) (by decide)
  constructor
  · intro message message' key signature hmessage hmessage' hverifies hverifies'
    have hlength : ∀ {j : Json} {input : Bytes},
        Federation.verifyInput PublishingExternal.echoing.toExternal j noteProof = some input →
        (input ++ List.replicate 64 0).take 64 = input := by
      intro j input hinput
      obtain ⟨configText, documentText, _, _, rfl⟩ := Federation.of_verifyInput hinput
      simp [PublishingExternal.echoing]
    have hsigned := beq_iff_eq.mp hverifies
    have hsigned' := beq_iff_eq.mp hverifies'
    rw [hlength hmessage] at hsigned
    rw [hlength hmessage'] at hsigned'
    exact hsigned.symm.trans hsigned'
  constructor
  · intro bytes
    simp [PublishingExternal.echoing]
  · intro j hj j' hj' text text' htext htext' hhash
    cases htext
    cases htext'
    rw [sha256_render, sha256_render] at hhash
    have hbytes := List.append_cancel_left hhash
    rw [hsame j hj j' hj' (List.cons.inj hbytes).1]
  · intro j hj j' hj' text htext htext'
    cases htext
    have hrender : j'.render = j.render := Except.ok.inj htext'
    rw [hsame j hj j' hj' (by rw [hashedByte, hashedByte, hrender])]
    exact Json.Same.refl j'

/-- Al's note is published, with a proof that verifies for it. -/
theorem alSigns_signed :
  ∃ answer signingKey, alSigns.1 = .ok answer ∧ answer.2.get "object" = some signedNote ∧
    decodePrivateKeyBase64 PublishingExternal.echoing.toSigningExternal
      "kkkkkkkkkkkkkkkkkkkkkkkkkkkkkkkk" = .ok signingKey ∧
    signatureVerifies PublishingExternal.echoing.toExternal signedNote noteProof
      (publicMultibase PublishingExternal.echoing.toSigningExternal signingKey) = true
  := by
  have hdone : alSigns.1.toOption.isSome = true := by
    decide +kernel
  have hget : (alSigns.1.toOption.bind fun answer => answer.2.get "object") = some signedNote := by
    have hthere : (alSigns.1.toOption.bind fun answer => answer.2.get "object").isSome = true := by
      decide +kernel
    obtain ⟨object, hobject⟩ := Option.isSome_iff_exists.mp hthere
    rw [signedNote, hobject]
    rfl
  have hkeys : ∀ a ∈ alWithKey.actors.rows, a.isLocal = true → a.username = "al" →
      a.ed25519PrivateKey = some "kkkkkkkkkkkkkkkkkkkkkkkkkkkkkkkk" := by
    decide +kernel
  cases hanswer : alSigns.1 with
  | error e =>
      rw [hanswer] at hdone
      cases hdone
  | ok answer =>
      rw [hanswer] at hget
      have hobject : answer.2.get "object" = some signedNote := hget
      obtain ⟨author, post, found, new, h, _⟩ := exists_published hanswer
      obtain ⟨document, signedAt, hdocument, _, _⟩ := h.document
      have hbuilt : document.signedDocument PublishingExternal.echoing.toSigningExternal signedAt
          author.apId author.ed25519PrivateKey = signedNote := by
        rw [hdocument] at hobject
        exact Option.some.inj hobject
      obtain ⟨base64, signingKey, proof, hkey, hdecoded, _, _, hproof, hverifies⟩ :=
        signedDocument_signed echoing_lawful hbuilt (congrArg Option.isSome selectProof_signedNote)
      have hname := Table.satisfies_of_find h.authored
      simp only [Bool.and_eq_true, beq_iff_eq] at hname
      have hbase64 := hkeys author (Table.mem_of_find h.authored) hname.2 hname.1
      obtain rfl := Option.some.inj (hkey.symm.trans hbase64)
      obtain rfl := Option.some.inj (hproof.symm.trans selectProof_signedNote)
      exact ⟨answer, signingKey, rfl, hobject, hdecoded, hverifies⟩

/-- Anyone is served Al's note. -/
theorem getPost_alSigns :
  (run apiWorld undisturbed (getPost "h.ex" none "al" 2).run alSigns.2).1 = .ok (some servedNote)
  := rfl

/-- Al's note verifies as it is published, and does not as it is served. -/
theorem getPost_breaks_proof :
  ∃ answer signingKey, alSigns.1 = .ok answer ∧ answer.2.get "object" = some signedNote ∧
    decodePrivateKeyBase64 PublishingExternal.echoing.toSigningExternal
      "kkkkkkkkkkkkkkkkkkkkkkkkkkkkkkkk" = .ok signingKey ∧
    verify PublishingExternal.echoing.toExternal ⟨0, 0⟩ signedNote
      (publicMultibase PublishingExternal.echoing.toSigningExternal signingKey) = .valid ∧
    (run apiWorld undisturbed (getPost "h.ex" none "al" 2).run alSigns.2).1 =
      .ok (some servedNote) ∧
    verify PublishingExternal.echoing.toExternal ⟨0, 0⟩ servedNote
      (publicMultibase PublishingExternal.echoing.toSigningExternal signingKey) ≠ .valid
  := by
  obtain ⟨answer, signingKey, hanswer, hobject, hdecoded, hverifies⟩ := alSigns_signed
  have hfilled : (servedNote.get "url").isSome = true := by
    decide +kernel
  have hsame : servedNote.get "proof" = signedNote.get "proof" := rfl
  have hnone : signedNote.get "url" = none := by
    apply Option.isNone_iff_eq_none.mp
    decide +kernel
  refine ⟨answer, signingKey, hanswer, hobject, hdecoded, ?_, getPost_alSigns, ?_⟩
  · apply (Federation.verify_valid_iff _).mpr
    exact ⟨noteProof, selectProof_signedNote, Nat.zero_le _, hverifies, rfl⟩
  · exact served_unverified hfilled hsame hnone selectProof_signedNote hverifies
      echoing_distinguishes _

/-- What is served of Al's note does not verify with Al's key. -/
theorem getPost_unverified_al :
  ∃ signingKey, decodePrivateKeyBase64 PublishingExternal.echoing.toSigningExternal
      "kkkkkkkkkkkkkkkkkkkkkkkkkkkkkkkk" = .ok signingKey ∧
    verify PublishingExternal.echoing.toExternal ⟨0, 0⟩ servedNote
      (publicMultibase PublishingExternal.echoing.toSigningExternal signingKey) ≠ .valid
  := by
  have hrows : ∀ p ∈ alSigns.2.posts.rows, p.id = 2 := by
    decide +kernel
  have hkeys : ∀ a ∈ alWithKey.actors.rows, a.isLocal = true → a.username = "al" →
      a.ed25519PrivateKey = some "kkkkkkkkkkkkkkkkkkkkkkkkkkkkkkkk" := by
    decide +kernel
  obtain ⟨answer, _, hanswer, hobject, _⟩ := alSigns_signed
  obtain ⟨author, post, base64, signingKey, hauthor, hkey, hdecoded, hpost, _, hstored, _,
    hnever⟩ := getPost_unverified .echoing "h.ex" undisturbed (some ⟨1⟩) "al" (noteFor "public")
      echoing_lawful hanswer hobject (congrArg Option.isSome selectProof_signedNote)
  have hname := Table.satisfies_of_find hauthor
  simp only [Bool.and_eq_true, beq_iff_eq] at hname
  have hbase64 := hkeys author (Table.mem_of_find hauthor) hname.2 hname.1
  obtain rfl := Option.some.inj (hkey.symm.trans hbase64)
  use signingKey, hdecoded
  have hid : post.id = 2 := hrows post hpost
  apply hnever alSigns.2 post hpost hstored undisturbed none "al" servedNote
  · rw [hid]
    exact getPost_alSigns
  · intro proof hproof
    obtain rfl := Option.some.inj (selectProof_signedNote.symm.trans hproof)
    exact echoing_distinguishes

end Api
