import Noombat.Federation.Downgrade

/-!
# What the document of an actor discloses

Two profiles agree publicly when they have the same identity and, if they are federated, the
same attachments and the same public sections.  Whether the documents of two such profiles
are the same depends only on whether they declare the same terms; and the sections are added
to the document, unless one has the type under which the document says how long it keeps.
-/

namespace Federation.Downgrade

open Authorisation (Relationship)

namespace Profile

/-- The profile, of which only what every document carries is kept. -/
def identity (p : Profile) : Profile :=
  { p with
    actor := { p.actor with
      id := 0
      chatmailAddr := none
      orcid := none
      actorPrivacy := ⟨p.actor.actorPrivacy.federateProfile, false⟩ }
    sections := []
    verifiedLinks := [] }

/-- The chat address, if everyone may see it. -/
def chatAddress (p : Profile) : Option String :=
  if p.actor.chatmailVisibleTo none Relationship.NONE then p.actor.chatmailAddr else none

/-- The profile data that an actor has chosen to publish. -/
def disclosed (p : Profile) :
    Option (Option String × Option String × List String × List FederatedSection) :=
  if p.actor.shouldFederateProfile then
    some (p.actor.orcid, p.chatAddress, p.verifiedLinks, p.publicSections)
  else none

/-- Two profiles agree on what is made public. -/
def AgreePublicly (p p' : Profile) : Prop :=
  p.identity = p'.identity ∧ p.disclosed = p'.disclosed

/-- Every property of the document without the sections is still there with them. -/
def Preserves (p : Profile) : Prop :=
  ∀ key value, (if p.actor.shouldFederateProfile then p.attachedDocument
    else p.identityDocument).get key = some value →
      (buildFederatedActor p).get key = some value

variable {p p' : Profile}

/-- The identity and whether the terms of schema.org are declared determine the document
without the profile. -/
theorem identityDocument_congr (h : p.identity = p'.identity)
    (hschema : p.declaresSchema = p'.declaresSchema) :
  p.identityDocument = p'.identityDocument
  := by
  have htype : p.actor.actorType = p'.actor.actorType := congrArg (·.actor.actorType) h
  have hapId : p.actor.apId = p'.actor.apId := congrArg (·.actor.apId) h
  have husername : p.actor.username = p'.actor.username := congrArg (·.actor.username) h
  have hname : p.actor.displayName = p'.actor.displayName := congrArg (·.actor.displayName) h
  have havatar : p.actor.avatarUrl = p'.actor.avatarUrl := congrArg (·.actor.avatarUrl) h
  have hheader : p.actor.headerUrl = p'.actor.headerUrl := congrArg (·.actor.headerUrl) h
  have hsummary : p.actor.summaryHtml = p'.actor.summaryHtml := congrArg (·.actor.summaryHtml) h
  have hpem : p.actor.publicKeyPem = p'.actor.publicKeyPem := congrArg (·.actor.publicKeyPem) h
  have hkey : p.actor.ed25519PublicKey = p'.actor.ed25519PublicKey :=
    congrArg (·.actor.ed25519PublicKey) h
  have hmoved : p.actor.movedTo = p'.actor.movedTo := congrArg (·.actor.movedTo) h
  have hdomain : p.domain = p'.domain := congrArg (·.domain) h
  have haliases : p.aliases = p'.aliases := congrArg (·.aliases) h
  have httl : p.ttlSecs = p'.ttlSecs := congrArg (·.ttlSecs) h
  have hconnections : p.connections = p'.connections := congrArg (·.connections) h
  have halt : p.avatarAlt = p'.avatarAlt := congrArg (·.avatarAlt) h
  simp only [identityDocument, optionalProperties, requiredProperties, extensions, htype, hapId, husername, hname, havatar, hheader,
    hsummary, hpem, hkey, hmoved, hdomain, haliases, httl, hconnections, halt, hschema]

theorem shouldFederateProfile_congr (h : p.identity = p'.identity) :
  p.actor.shouldFederateProfile = p'.actor.shouldFederateProfile
  := congrArg (·.actor.actorPrivacy.federateProfile) h

theorem attachments_congr (horcid : p.actor.orcid = p'.actor.orcid)
    (hchat : p.chatAddress = p'.chatAddress) (hlinks : p.verifiedLinks = p'.verifiedLinks) :
  p.attachments = p'.attachments
  := by
  have hchat' : ∀ p : Profile, (if p.actor.chatmailVisibleTo none Relationship.NONE then
      p.actor.chatmailAddr.toList.map fun addr =>
        Json.obj [("type", .str "PropertyValue"), ("name", .str "Chat"), ("value", .str addr)]
      else []) = p.chatAddress.toList.map fun addr =>
        Json.obj [("type", .str "PropertyValue"), ("name", .str "Chat"), ("value", .str addr)] := by
    intro p
    rw [chatAddress]
    split
    · rfl
    · rfl
  rw [attachments, attachments, hchat', hchat', horcid, hchat, hlinks]

/-- The documents of profiles that agree publicly are the same when they declare the same. -/
theorem build_congr (h : AgreePublicly p p') (hschema : p.declaresSchema = p'.declaresSchema) :
  buildFederatedActor p = buildFederatedActor p'
  := by
  obtain ⟨hidentity, hdisclosed⟩ := h
  have hdocument := identityDocument_congr hidentity hschema
  have hfederates := shouldFederateProfile_congr hidentity
  rw [buildFederatedActor, buildFederatedActor]
  rw [disclosed, disclosed] at hdisclosed
  cases hfed : p'.actor.shouldFederateProfile with
  | false =>
      rw [hfed] at hfederates
      simp only [hfederates]
      exact hdocument
  | true =>
      rw [hfed] at hfederates
      simp only [hfederates, hfed, if_true, Option.some.injEq, Prod.mk.injEq] at hdisclosed ⊢
      obtain ⟨horcid, hchat, hlinks, hsections⟩ := hdisclosed
      rw [hsections, attachedDocument, attachedDocument, attachments_congr horcid hchat hlinks,
        hdocument]

/-! ### The keys of the document -/

theorem get_setSome_of_ne {key key' : String} (h : key' ≠ key) (value : Option Json) (obj : Json) :
  (setSome key value obj).get key' = obj.get key'
  := by
  cases value with
  | none => rfl
  | some v => exact Json.get_insert_of_ne h obj v

theorem isObject_setSome (key : String) (value : Option Json) (obj : Json) :
  (setSome key value obj).isObject = obj.isObject
  := by
  cases value with
  | none => rfl
  | some v => exact Json.isObject_insert key obj v

theorem isObject_foldl_setSome (properties : List (String × Option Json)) (obj : Json) :
  (properties.foldl (fun obj e => setSome e.1 e.2 obj) obj).isObject = obj.isObject
  := by
  induction properties generalizing obj with
  | nil => rfl
  | cons e properties ih => rw [List.foldl_cons, ih, isObject_setSome]

theorem get_foldl_setSome_of_not_mem {properties : List (String × Option Json)} {key : String}
    (h : key ∉ properties.map (·.1)) (obj : Json) :
  (properties.foldl (fun obj e => setSome e.1 e.2 obj) obj).get key = obj.get key
  := by
  induction properties generalizing obj with
  | nil => rfl
  | cons e properties ih =>
      rw [List.map_cons, List.mem_cons, not_or] at h
      rw [List.foldl_cons, ih h.2, get_setSome_of_ne h.1]

theorem get_foldl_setSome_of_mem {properties : List (String × Option Json)}
    (hkeys : (properties.map (·.1)).Nodup) {key : String} {value : Json}
    (h : (key, some value) ∈ properties) {obj : Json} (hobj : obj.isObject = true) :
  (properties.foldl (fun obj e => setSome e.1 e.2 obj) obj).get key = some value
  := by
  induction properties generalizing obj with
  | nil => cases h
  | cons e properties ih =>
      rw [List.map_cons, List.nodup_cons] at hkeys
      rw [List.foldl_cons]
      rcases List.mem_cons.mp h with rfl | h
      · rw [get_foldl_setSome_of_not_mem hkeys.1]
        exact Json.get_insert_self hobj
      · apply ih hkeys.2 h
        rw [isObject_setSome]
        exact hobj

theorem isObject_attachedDocument (p : Profile) :
  p.attachedDocument.isObject = true
  := by
  have hidentity : p.identityDocument.isObject = true := isObject_foldl_setSome _ _
  rw [attachedDocument]
  split
  · exact hidentity
  · rw [Json.isObject_insert]
    exact hidentity

theorem get_attachedDocument_of_ne {key : String} (h : key ≠ "attachment") :
  p.attachedDocument.get key = p.identityDocument.get key
  := by
  rw [attachedDocument]
  split
  · rfl
  · exact Json.get_insert_of_ne h _ _

theorem get_context (p : Profile) :
  p.identityDocument.get "@context" = some (contextWith p.extensions)
  := by
  rw [identityDocument, get_foldl_setSome_of_not_mem]
  · rfl
  · simp [optionalProperties, TTL]

theorem get_ttl (p : Profile) :
  p.identityDocument.get TTL = some (.num (toString (p.ttlSecs.getD DEFAULT_TTL_SECS)))
  := by
  apply get_foldl_setSome_of_mem
  · simp [optionalProperties, TTL]
  · simp [optionalProperties]
  · rfl

/-- A key of the namespace is not one that is not. -/
theorem key_ne {s : FederatedSection} {key : String}
    (h : Text.startsWith key "noombat:" = false) :
  s.key ≠ key
  := by
  rintro rfl
  rw [FederatedSection.key, Text.startsWith_append] at h
  cases h

/-- No property of the document has the key of a section, but the one that says how long the
document may be kept. -/
theorem get_section_key {s : FederatedSection} (h : s.key ≠ TTL) :
  p.attachedDocument.get s.key = none
  := by
  have hne : ∀ key, Text.startsWith key "noombat:" = false → s.key ≠ key := fun _ => key_ne
  rw [get_attachedDocument_of_ne (key_ne rfl), identityDocument, get_foldl_setSome_of_not_mem]
  · rw [requiredProperties, Json.get_obj, List.lookup_eq_none_iff]
    intro e he
    have hkeys : ∀ key ∈ ["@context", "id", "type", "preferredUsername", "url", "inbox", "outbox",
        "followers", "following", "endpoints", "publicKey"],
        Text.startsWith key "noombat:" = false := by
      decide +kernel
    simpa using hne e.1 (hkeys e.1 (List.mem_map_of_mem (f := Prod.fst) he))
  · simp only [optionalProperties, List.map_cons, List.map_nil, List.mem_cons, List.not_mem_nil,
      or_false, not_or]
    exact ⟨hne _ rfl, hne _ rfl, hne _ rfl, hne _ rfl, h, hne _ rfl, hne _ rfl, hne _ rfl, hne _ rfl⟩

/-! ### The sections -/

theorem mem_addSection {m : List (String × List Json)} {s : FederatedSection} {key : String} :
  (∃ entry ∈ addSection m s, entry.1 = key) ↔ (∃ entry ∈ m, entry.1 = key) ∨ s.key = key
  := by
  rw [addSection]
  split
  · rename_i hany
    obtain ⟨entry, hentry, hkey⟩ := List.any_eq_true.mp hany
    constructor
    · rintro ⟨entry', hentry', rfl⟩
      obtain ⟨entry₀, hentry₀, rfl⟩ := List.mem_map.mp hentry'
      left
      use entry₀, hentry₀
      split
      · rfl
      · rfl
    · intro h
      obtain ⟨entry₀, hentry₀, rfl⟩ : ∃ entry ∈ m, entry.1 = key := by
        rcases h with h | rfl
        · exact h
        · exact ⟨entry, hentry, beq_iff_eq.mp hkey⟩
      refine ⟨_, List.mem_map_of_mem hentry₀, ?_⟩
      split
      · rfl
      · rfl
  · simp [or_and_right, exists_or]

theorem mem_foldl_addSection {sections : List FederatedSection} {m : List (String × List Json)}
    {key : String} :
  (∃ entry ∈ sections.foldl addSection m, entry.1 = key) ↔
    (∃ entry ∈ m, entry.1 = key) ∨ ∃ s ∈ sections, s.key = key
  := by
  induction sections generalizing m with
  | nil => simp
  | cons s sections ih =>
      rw [List.foldl_cons, ih, mem_addSection, or_assoc]
      simp only [List.mem_cons, exists_eq_or_imp]

/-- The keys of the sections are those that are added to the document. -/
theorem mem_sectionMap {sections : List FederatedSection} {key : String} :
  (∃ entry ∈ sectionMap sections, entry.1 = key) ↔ ∃ s ∈ sections, s.key = key
  := by
  rw [sectionMap, mem_foldl_addSection]
  simp

theorem get_foldl_insert_of_not_mem {entries : List (String × List Json)} {key : String}
    (h : ¬ ∃ entry ∈ entries, entry.1 = key) (obj : Json) :
  (entries.foldl (fun obj entry => obj.insert entry.1 (.arr entry.2)) obj).get key = obj.get key
  := by
  induction entries generalizing obj with
  | nil => rfl
  | cons entry entries ih =>
      rw [List.exists_mem_cons_iff, not_or] at h
      rw [List.foldl_cons, ih h.2, Json.get_insert_of_ne (Ne.symm h.1)]

/-- What is under a key of a section is an array. -/
theorem get_foldl_insert_of_mem {entries : List (String × List Json)} {key : String}
    (h : ∃ entry ∈ entries, entry.1 = key) {obj : Json} (hobj : obj.isObject = true) :
  ∃ items, (entries.foldl (fun obj entry => obj.insert entry.1 (.arr entry.2)) obj).get key =
    some (.arr items)
  := by
  induction entries generalizing obj with
  | nil =>
      obtain ⟨entry, hentry, _⟩ := h
      cases hentry
  | cons entry entries ih =>
      rw [List.foldl_cons]
      by_cases hlater : ∃ entry ∈ entries, entry.1 = key
      · apply ih hlater
        rw [Json.isObject_insert]
        exact hobj
      · rw [get_foldl_insert_of_not_mem hlater]
        obtain ⟨entry', hentry', rfl⟩ := h
        rcases List.mem_cons.mp hentry' with rfl | hentry'
        · exact ⟨entry'.2, Json.get_insert_self hobj⟩
        · exact absurd ⟨entry', hentry', rfl⟩ hlater

/-! ### What the document keeps to itself -/

/-- A section of the profile has the type of the time that the document may be kept. -/
def NamesTtl (p : Profile) : Prop :=
  p.actor.shouldFederateProfile = true ∧
    ∃ s ∈ p.sections, s.visibility = .public ∧ s.sectionType = "ttl"

theorem key_eq_ttl {s : FederatedSection} :
  s.key = TTL ↔ s.sectionType = "ttl"
  := by
  constructor
  · intro h
    have happend : "noombat:" ++ s.sectionType = "noombat:" ++ "ttl" := h
    exact String.append_right_inj _ |>.mp happend
  · intro h
    rw [FederatedSection.key, h]
    rfl

/-- The sections leave everything else in place, unless one overwrites the time that the
document may be kept. -/
theorem preserves_iff (p : Profile) :
  p.Preserves ↔ ¬ p.NamesTtl
  := by
  have hmem : ∀ key, (∃ entry ∈ sectionMap p.publicSections, entry.1 = key) ↔
      ∃ s ∈ p.sections, s.visibility = .public ∧ s.key = key := by
    intro key
    rw [mem_sectionMap]
    simp only [publicSections, List.mem_filter, beq_iff_eq, and_assoc]
  rw [Preserves, NamesTtl, buildFederatedActor]
  split
  · rename_i hfederates
    constructor
    · rintro hpreserves ⟨_, s, hs, hpublic, htype⟩
      have hbefore : p.attachedDocument.get TTL =
          some (.num (toString (p.ttlSecs.getD DEFAULT_TTL_SECS))) := by
        rw [get_attachedDocument_of_ne (by decide), get_ttl]
      have hafter := hpreserves TTL _ hbefore
      obtain ⟨items, hitems⟩ := get_foldl_insert_of_mem
        ((hmem TTL).mpr ⟨s, hs, hpublic, key_eq_ttl.mpr htype⟩) (isObject_attachedDocument p)
      rw [hitems] at hafter
      cases hafter
    · intro hnames key value hbefore
      rw [get_foldl_insert_of_not_mem]
      · exact hbefore
      · rw [hmem]
        rintro ⟨s, hs, hpublic, rfl⟩
        rw [get_section_key] at hbefore
        · cases hbefore
        · rw [Ne, key_eq_ttl]
          intro htype
          exact hnames ⟨hfederates, s, hs, hpublic, htype⟩
  · rename_i hfederates
    constructor
    · rintro _ ⟨h, _⟩
      exact hfederates h
    · intro _ key value h
      exact h

/-- The context of the document. -/
theorem get_build_context (p : Profile) :
  (buildFederatedActor p).get "@context" = some (contextWith p.extensions)
  := by
  rw [buildFederatedActor]
  split
  · rw [get_foldl_insert_of_not_mem, get_attachedDocument_of_ne (by decide), get_context]
    rw [mem_sectionMap]
    rintro ⟨s, _, hkey⟩
    exact key_ne rfl hkey
  · exact get_context p

/-- A context declares the terms of schema.org when they are asked for. -/
theorem mem_terms_iff (extensions : List Extension) :
  ("schema", Json.str SCHEMA_NS) ∈ (wantedOf extensions).flatMap Extension.terms ↔
    .schema ∈ extensions
  := by
  rw [List.mem_flatMap]
  constructor
  · rintro ⟨e, he, hterm⟩
    cases e with
    | schema => exact of_decide_eq_true (List.mem_filter.mp he).2
    | _ => simp [Extension.terms] at hterm
  · intro h
    use .schema
    simp [wantedOf, h, Extension.terms]

theorem schema_mem_extensions (p : Profile) :
  .schema ∈ p.extensions ↔ p.declaresSchema = true
  := by
  simp [extensions]

/-- Documents with one context declare the same. -/
theorem declaresSchema_of_context (h : contextWith p.extensions = contextWith p'.extensions) :
  p.declaresSchema = p'.declaresSchema
  := by
  have hentries := (List.append_inj' (Json.arr.inj h) rfl).2
  have hterms := (List.append_inj' (Json.obj.inj (List.cons.inj hentries).1) rfl).1
  rw [Bool.eq_iff_iff, ← schema_mem_extensions, ← schema_mem_extensions, ← mem_terms_iff,
    ← mem_terms_iff, hterms]

/-- The documents of two profiles that agree publicly are the same, and the sections
overwrite nothing, exactly when they declare the same terms and no section has the type of
the time that the document may be kept. -/
theorem profile_visibility {p p' : Profile} (h : AgreePublicly p p') :
  (buildFederatedActor p = buildFederatedActor p' ∧ p.Preserves ∧ p'.Preserves) ↔
    (p.declaresSchema = p'.declaresSchema ∧ ¬ p.NamesTtl ∧ ¬ p'.NamesTtl)
  := by
  rw [preserves_iff, preserves_iff]
  apply and_congr_left
  intro _
  constructor
  · intro hbuild
    apply declaresSchema_of_context
    have hcontext := congrArg (·.get "@context") hbuild
    simp only [get_build_context] at hcontext
    exact Option.some.inj hcontext
  · exact build_congr h

end Profile

/-! ### A profile that is withheld, and one that is not -/

/-- An actor with an ORCID iD and the given sections, whose profile is federated or not. -/
def ann (federateProfile : Bool) (orcid : Option String) (sections : List FederatedSection) :
    Profile where
  actor :=
    { id := 1
      actorType := .individual
      apId := "https://home.example/users/ann"
      username := "ann"
      displayName := none
      avatarUrl := none
      headerUrl := none
      summaryHtml := none
      publicKeyPem := "PEM"
      ed25519PublicKey := none
      chatmailAddr := none
      orcid
      movedTo := none
      actorPrivacy := ⟨federateProfile, true⟩ }
  domain := "home.example"
  sections
  aliases := []
  verifiedLinks := []
  ttlSecs := none
  connections := none
  avatarAlt := none

/-- An actor who withholds the profile, with an ORCID iD and without, has two documents; and
a section overwrites the time that the document may be kept. -/
theorem withheld_profile_disclosed :
  (Profile.AgreePublicly (ann false (some "0000-0002-1825-0097") []) (ann false none []) ∧
      buildFederatedActor (ann false (some "0000-0002-1825-0097") []) ≠
        buildFederatedActor (ann false none [])) ∧
    ¬ (ann true none [⟨"ttl", .public, .null⟩]).Preserves
  := by
  refine ⟨⟨⟨rfl, rfl⟩, ?_⟩, ?_⟩
  · intro h
    have hcontext := congrArg (·.get "@context") h
    simp only [Profile.get_build_context] at hcontext
    have hschema := Profile.declaresSchema_of_context (Option.some.inj hcontext)
    cases hschema
  · rw [Profile.preserves_iff, not_not]
    exact ⟨rfl, _, List.mem_singleton_self _, rfl, rfl⟩

/-- A section that is private makes no difference to a document with an attachment. -/
theorem profile_visibility_private :
  let p := ann true (some "0000-0002-1825-0097") []
  let p' := ann true (some "0000-0002-1825-0097") [⟨"education", .private, .null⟩]
  buildFederatedActor p = buildFederatedActor p' ∧ p.Preserves ∧ p'.Preserves
  := by
  intro p p'
  have hnames : ∀ q : Profile, (∀ s ∈ q.sections, s.visibility ≠ .public) → ¬ q.NamesTtl := by
    rintro q hprivate ⟨_, s, hs, hpublic, _⟩
    exact hprivate s hs hpublic
  have hagree : Profile.AgreePublicly p p' := ⟨rfl, rfl⟩
  apply (Profile.profile_visibility hagree).mpr
  refine ⟨rfl, hnames p ?_, hnames p' ?_⟩
  · intro s hs
    cases hs
  · intro s hs
    obtain rfl := List.mem_singleton.mp hs
    simp

end Federation.Downgrade
