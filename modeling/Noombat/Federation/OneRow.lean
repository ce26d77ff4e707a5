import Noombat.Federation.ActorCalls
import Noombat.Federation.Client

/-!
# One row for each actor

A document is accepted by the normal form of its `id`, but it is stored, and an actor is looked up,
by the text of it.  While every document that is accepted spells an `id` that is known in the way it
is known, no two rows are of one actor, and the domain of every row of a remote actor is the host of
its `ap_id`.  The row of an actor is found without the network just if the URI that is resolved is
spelled as in the row.
-/

/-! ### Hosts -/

namespace Url

open Text

/-- The host of a URL, with its port unless it has the default one. -/
def hostAndPort (u : Url) : Option String :=
  u.host.map fun host => host ++ u.port.elim "" fun n => ":" ++ toString n

/-- A URL has a host without a slash, and a path that starts with one. -/
structure Rooted (u : Url) : Prop where
  host : ∃ host, u.host = some host ∧ '/' ∉ host.toList
  path : startsWith u.path "/" = true

/-- A decimal number has no slash. -/
theorem slash_not_mem_toString (n : Nat) :
  '/' ∉ (toString n).toList
  := by
  intro h
  rw [Nat.toString_eq_repr, Nat.repr_eq_ofList_toDigits, String.toList_ofList] at h
  have hdigit := Nat.isDigit_of_mem_toDigits (by decide) (by decide) h
  cases hdigit

theorem slash_not_mem_hostAndPort {u : Url} (h : u.Rooted) {s : String}
    (hs : u.hostAndPort = some s) :
  '/' ∉ s.toList
  := by
  obtain ⟨host, hhost, hslash⟩ := h.host
  rw [hostAndPort, hhost, Option.map_some] at hs
  obtain rfl := Option.some.inj hs
  rw [String.toList_append, List.mem_append, not_or]
  constructor
  · exact hslash
  · cases u.port with
    | none => exact List.not_mem_nil
    | some n =>
        rw [Option.elim_some, String.toList_append, List.mem_append, not_or]
        constructor
        · decide
        · apply slash_not_mem_toString

theorem host_normaliseActorUri (u : Url) :
  u.normaliseActorUri.host = u.host
  := by
  unfold normaliseActorUri setPath
  rfl

theorem port_normaliseActorUri (u : Url) :
  u.normaliseActorUri.port = u.port
  := by
  unfold normaliseActorUri setPath
  rfl

/-- URLs with the same normal form have the same host and port. -/
theorem hostAndPort_congr {u v : Url} (h : u.normaliseActorUri = v.normaliseActorUri) :
  u.hostAndPort = v.hostAndPort
  := by
  rw [hostAndPort, hostAndPort, ← host_normaliseActorUri u, ← port_normaliseActorUri u, h,
    host_normaliseActorUri, port_normaliseActorUri]

end Url

namespace Federation

open Fallible Program Text

theorem head_split (c : Char) (s : String) :
  (split c s).head? = some (String.ofList (s.toList.takeWhile (· != c)))
  := by
  rw [split, List.head?_map, head_splitList]
  rfl

/-- What stands before a slash, if it has none itself. -/
theorem head_split_append {s : String} (h : '/' ∉ s.toList) (tail : String) :
  (split '/' (s ++ ("/" ++ tail))).head? = some s
  := by
  have hbefore : ∀ c ∈ s.toList, (c != '/') = true := by
    intro c hc
    apply bne_iff_ne.mpr
    rintro rfl
    exact h hc
  rw [head_split, String.toList_append, List.takeWhile_append_of_pos hbefore, String.toList_append]
  change some (String.ofList (s.toList ++ [])) = some s
  rw [List.append_nil, String.ofList_toList]

/-- The domain of a URL over HTTP without credentials is its host. -/
theorem extractDomain_asStr {u : Url} (hscheme : u.scheme = "https" ∨ u.scheme = "http")
    (husername : u.username = "") (hpassword : u.password = none) (h : u.Rooted) :
  extractDomain u.asStr = u.hostAndPort
  := by
  obtain ⟨host, hhost, _⟩ := h.host
  obtain ⟨domain, hdomain⟩ : ∃ domain, u.hostAndPort = some domain := by
    rw [Url.hostAndPort, hhost]
    exact ⟨_, rfl⟩
  have hauthority : u.authority = "//" ++ domain := by
    rw [Url.hostAndPort, hhost] at hdomain
    obtain rfl := Option.some.inj hdomain
    rw [Url.authority, hhost]
    simp only [husername, hpassword, and_self, if_true, String.append_empty, String.append_assoc]
  obtain ⟨path, hpath⟩ : ∃ path : String, u.path = "/" ++ path := by
    obtain ⟨rest, hrest⟩ := List.isPrefixOf_iff_prefix.mp h.path
    use String.ofList rest
    rw [← String.toList_inj, String.toList_append, ← hrest]
    exact congrArg _ String.toList_ofList.symm
  obtain ⟨tail, htail⟩ : ∃ tail : String,
      u.asStr = u.scheme ++ ("://" ++ (domain ++ ("/" ++ tail))) := by
    use path ++ (u.query.elim "" ("?" ++ ·) ++ u.fragment.elim "" ("#" ++ ·))
    rw [Url.asStr, hauthority, hpath]
    simp only [String.append_assoc]
    rfl
  have hdomain' := Url.slash_not_mem_hostAndPort h hdomain
  rw [htail, hdomain, extractDomain]
  rcases hscheme with hscheme | hscheme
  · rw [hscheme]
    change ((stripPrefix "https://" ("https://" ++ (domain ++ ("/" ++ tail)))).or _).bind _ = _
    rw [stripPrefix_append, Option.some_or, Option.bind_some, head_split_append hdomain']
  · rw [hscheme]
    have hother :
        stripPrefix "https://" ("http" ++ ("://" ++ (domain ++ ("/" ++ tail)))) = none := by
      rw [stripPrefix, if_neg]
      rw [startsWith, String.toList_append, String.toList_append]
      change ¬ false = true
      exact Bool.false_ne_true
    rw [hother, Option.none_or]
    change (stripPrefix "http://" ("http://" ++ (domain ++ ("/" ++ tail)))).bind _ = _
    rw [stripPrefix_append, Option.bind_some, head_split_append hdomain']

/-! ### Rows -/

/-- The domain of an actor is the host of its `ap_id`. -/
def Actor.DomainIsHost (ext : External) (a : Actor) : Prop :=
  ∃ u, ext.urlParse a.apId = .ok u ∧ u.hostAndPort = some a.domain

/-- No two rows are of one actor, and the domain of a remote one is the host of its `ap_id`. -/
structure OneRowEach (ext : External) (db : Db) : Prop where
  distinct : ∀ a ∈ db.actors, ∀ b ∈ db.actors, sameActorUri ext a.apId b.apId = true → a = b
  domain : ∀ a ∈ db.actors, a.isLocal = false → a.DomainIsHost ext

/-- Answers come from URLs that the client may fetch. -/
def ServedFrom (lib : Client.UrlLibrary) (allowLocalTargets : Bool) : Condition fedWorld :=
  fun q c _ => ∀ url response, q.fetched c = some (url, response) →
    Client.checkUrl lib allowLocalTargets response.url = .ok () ∧ response.url.Rooted

/-- An `id` that is accepted is spelled as it is known, if it is. -/
def SpelledAlike (ext : External) : Condition fedWorld :=
  fun q c db => ∀ url response apActor, q.fetched c = some (url, response) →
    response.actor = .ok apActor → verifyFetchedActorId ext apActor.id response.url url = .ok () →
      ∀ a ∈ db.actors, sameActorUri ext apActor.id a.apId = true → apActor.id = a.apId

section Rows

variable {ext : External} {lib : Client.UrlLibrary} {allowLocalTargets : Bool} {db : Db}

theorem of_checkUrl {u : Url} (h : Client.checkUrl lib allowLocalTargets u = .ok ()) :
  (u.scheme = "https" ∨ u.scheme = "http") ∧ u.username = "" ∧ u.password = none
  := by
  rw [Client.checkUrl] at h
  split at h
  · cases h
  · rename_i hscheme
    rw [not_not] at hscheme
    split at h
    · cases h
    · dsimp only at h
      split at h
      · cases h
      · split at h
        · cases h
        · rename_i hcredentials
          rw [not_or, not_not, Bool.not_eq_true, Option.isSome_eq_false_iff,
            Option.isNone_iff_eq_none] at hcredentials
          exact ⟨hscheme.imp id (·.1), hcredentials.1, hcredentials.2⟩

/-- The domain that is stored with a document is the host of its `id`. -/
theorem domain_of_apActorToRemote {apActor : ApActor} {finalUrl : Url} {uri : String}
    {remote : RemoteActor} (h : apActorToRemote ext apActor finalUrl uri = .ok remote)
    (hchecked : Client.checkUrl lib allowLocalTargets finalUrl = .ok ())
    (hrooted : finalUrl.Rooted) :
  ∃ u, ext.urlParse remote.apId = .ok u ∧ u.hostAndPort = some remote.domain
  := by
  obtain ⟨hverified, hapId, _⟩ := of_apActorToRemote h
  obtain ⟨_, claimed, _, hclaimed, _, hnormal⟩ := verifyFetchedActorId_ok_iff.mp hverified
  obtain ⟨hscheme, husername, hpassword⟩ := of_checkUrl hchecked
  use claimed
  constructor
  · rw [hapId]
    exact hclaimed
  · obtain ⟨host, hhost, _⟩ := hrooted.host
    have hdomain : remote.domain = (extractDomain finalUrl.asStr).getD "" := by
      rw [apActorToRemote, hverified] at h
      obtain rfl := Except.ok.inj h
      rfl
    rw [Url.hostAndPort_congr hnormal, hdomain,
      extractDomain_asStr hscheme husername hpassword hrooted, Url.hostAndPort, hhost]
    rfl

/-- Storing an actor whose `ap_id` is not another spelling of a known one keeps one row each. -/
theorem OneRowEach.upsertRemoteActor (h : OneRowEach ext db) {remote : RemoteActor}
    (hdomain : ∃ u, ext.urlParse remote.apId = .ok u ∧ u.hostAndPort = some remote.domain)
    (hspelled : ∀ a ∈ db.actors, sameActorUri ext remote.apId a.apId = true →
      remote.apId = a.apId) :
  OneRowEach ext (db.upsertRemoteActor remote).2
  := by
  obtain hsame | ⟨hnew, hactors⟩ | hactors := db.upsertRemoteActor_cases remote
  · rw [hsame]
    exact h
  · constructor
    · intro a ha b hb hsame
      rcases (hactors a).mp ha with rfl | ha'
      · rcases (hactors b).mp hb with rfl | hb'
        · rfl
        · exact absurd (hspelled b hb' hsame).symm (hnew b hb')
      · rcases (hactors b).mp hb with rfl | hb'
        · exact absurd (hspelled a ha' (sameActorUri_symm hsame)).symm (hnew a ha')
        · exact h.distinct a ha' b hb' hsame
    · intro a ha hremote
      rcases (hactors a).mp ha with rfl | ha'
      · exact hdomain
      · exact h.domain a ha' hremote
  · constructor
    · intro a ha b hb hsame
      obtain ⟨a', ha', rfl⟩ := (hactors a).mp ha
      obtain ⟨b', hb', rfl⟩ := (hactors b).mp hb
      have hids : ∀ a : Actor, (if a.apId == remote.apId && !a.isLocal then
          (ActorChange.refresh remote).apply a else a).apId = a.apId := by
        intro a
        split
        · rfl
        · rfl
      rw [hids, hids] at hsame
      rw [h.distinct a' ha' b' hb' hsame]
    · intro a ha hremote
      obtain ⟨a', ha', rfl⟩ := (hactors a).mp ha
      split at hremote
      · rw [if_pos ‹_›]
        exact h.domain a' ha' hremote
      · rw [if_neg ‹_›]
        exact h.domain a' ha' hremote

/-- What a call stores keeps one row each, if it is served by the client and spelled as it is
known. -/
theorem oneRowEach_kept :
  StoredKeeps ext
    (fun q c db => ServedFrom lib allowLocalTargets q c db ∧ SpelledAlike ext q c db)
    (OneRowEach ext)
  := by
  constructor
  · intro db url response apActor remote hfetched hactor hremote key h
    obtain ⟨q, c, ⟨hserved, hspelled⟩, hanswer⟩ := hfetched
    obtain ⟨hchecked, hrooted⟩ := hserved url response hanswer
    obtain ⟨hverified, hapId, _⟩ := of_apActorToRemote hremote
    apply h.upsertRemoteActor
    · obtain ⟨u, hu⟩ := domain_of_apActorToRemote hremote hchecked hrooted
      exact ⟨u, hu⟩
    · intro a ha
      change sameActorUri ext remote.apId a.apId = true → remote.apId = a.apId
      rw [hapId]
      exact hspelled url response apActor hanswer hactor hverified a ha
  · intro db url response _ h
    constructor
    · rw [Db.insertTombstone_toCore]
      exact h.distinct
    · rw [Db.insertTombstone_toCore]
      exact h.domain

end Rows

/-! ### Rows that are found -/

/-- A URI is resolved to a row that is stored, whatever remote servers answer. -/
def FoundStored (ext : External) (uri : String) (a : Actor) (db : Db) : Prop :=
  ∀ script : Script fedWorld, (∀ n st, (script n (.sql st)).error = none) →
    run fedWorld script (resolveActor ext uri).run db = (.ok a, db)

section Found

variable {ext : External} {uri : String} {a : Actor} {db : Db}

theorem foundStored_of_find (hfind : db.actors.find (·.apId == uri) = some a) :
  FoundStored ext uri a db
  := by
  intro script hscript
  have hp : wp fedWorld SqlAnswers (fun r db' => r = .ok a ∧ db' = db)
      (resolveActor ext uri).run db := by
    rw [resolveActor, wp_run_bind]
    apply wp_sql_answers (fun _ _ _ hc => hc) (.findByApId uri)
    intro pick
    rw [Sql.exec, onExcept_ok, hfind]
    exact (wp_run_pure _ a db).mpr ⟨rfl, rfl⟩
  obtain ⟨hresult, hdb⟩ := run_of_answers hp hscript
  exact Prod.ext hresult hdb

/-- Where no fetch is answered, a URI that is not known is not resolved. -/
theorem not_resolved_of_find (hfind : db.actors.find (·.apId == uri) = none)
    {script : Script fedWorld} (hscript : ∀ n q, FedRequest.fetched q (script n q) = none)
    (b : Actor) :
  (run fedWorld script (resolveActor ext uri).run db).1 ≠ .ok b
  := by
  have hp : wp fedWorld (fun q c _ => FedRequest.fetched q c = none) (fun r _ => r ≠ .ok b)
      (resolveActor ext uri).run db := by
    rw [resolveActor, wp_run_bind]
    apply wp_sql (.findByApId uri)
    · intro _ h
      cases h
    intro c _
    rw [Sql.exec, onExcept_ok, hfind, wp_run_bind, wp_unwrapOr]
    apply wp_mono _ (wp_reads (.isTombstoned uri) (fun _ _ => rfl) db)
    rintro r _ rfl
    rw [onExcept_ok]
    split
    · rw [wp_run_throw]
      intro h
      cases h
    · rw [fetchActor, wp_run_bind]
      apply wp_mono _ (wp_fetchSigned_at uri _)
      rintro (e | response) db' h
      · intro h
        cases h
      · obtain ⟨_, q, c, hnone, hanswer⟩ := h
        rw [hnone] at hanswer
        cases hanswer
  apply wp_run hp
  apply alongFrom_of_script
  intro n q s
  exact hscript n q

/-- The row of an actor is found without the network just if the URI is spelled as in the row. -/
theorem foundStored_iff (ha : a ∈ db.actors) :
  FoundStored ext uri a db ↔ uri = a.apId
  := by
  constructor
  · intro h
    have hrefused := h (steady fun _ => .error (.federation "refused")) fun _ _ => rfl
    cases hfind : db.actors.find (·.apId == uri) with
    | none =>
        apply absurd (congrArg Prod.fst hrefused)
        apply not_resolved_of_find hfind
        intro n q
        cases q with
        | _ => rfl
    | some b =>
        have hb : FoundStored ext uri b db := foundStored_of_find hfind
        rw [hb (steady fun _ => .error (.federation "refused")) fun _ _ => rfl] at hrefused
        obtain rfl := Except.ok.inj (congrArg Prod.fst hrefused)
        exact (Core.of_find_apId hfind).2.symm
  · rintro rfl
    exact foundStored_of_find (Core.find_apId ha rfl)

end Found

/-! ### Runs -/

/-- Throughout a run of calls whose documents are served by the client and spell an `id` that is
known as it is known, there is one row for each actor, its domain is its host, the local rows stay
as they were, and a row is found without the network just by its own spelling. -/
theorem one_row_each (ext : External) (lib : Client.UrlLibrary) (allowLocalTargets : Bool)
    {db₀ : Db} (h₀ : OneRowEach ext db₀) {events : List ActorEvent}
    (hevents : Runs.Meets (actorStep ext)
      (fun db e => e.Along ext (fun q c db =>
        ServedFrom lib allowLocalTargets q c db ∧ SpelledAlike ext q c db) db) events db₀) :
  Runs.Throughout (actorStep ext)
    (fun db => OneRowEach ext db ∧
      (∀ a : Actor, a.isLocal = true → (a ∈ db.actors ↔ a ∈ db₀.actors)) ∧
      ∀ uri, ∀ a ∈ db.actors, sameActorUri ext uri a.apId = true →
        (FoundStored ext uri a db ↔ uri = a.apId))
    events db₀
  := by
  have hrun : Runs.Throughout (actorStep ext)
      (fun db => OneRowEach ext db ∧
        ∀ a : Actor, a.isLocal = true → (a ∈ db.actors ↔ a ∈ db₀.actors)) events db₀ := by
    apply Runs.throughout_of_meets _ ⟨h₀, fun _ _ => Iff.rfl⟩ hevents
    rintro db _ e ⟨hrows, hlocals⟩ halong hstep
    obtain rfl := Option.some.inj hstep
    constructor
    · exact e.after_inv oneRowEach_kept halong hrows
    · intro a hlocal
      rw [e.locals_after db a hlocal]
      exact hlocals a hlocal
  apply hrun.mono
  rintro db ⟨hrows, hlocals⟩
  exact ⟨hrows, hlocals, fun uri a ha _ => foundStored_iff ha⟩

/-! ### Two rows of one actor -/

/-- A document with the given `id`. -/
def profile (id : String) : ApActor where
  id := id
  actorType := "Person"
  preferredUsername := "ann"
  name := none
  summary := none
  inbox := id ++ "/inbox"
  publicKey := ⟨id ++ "#main-key", id, "PEM"⟩
  endpoints := none
  assertionMethod := none
  discoverable := none
  indexable := none

/-- A server that answers every URL with a document that has it for an `id`. -/
def serveProfile (url : String) : Except NoombatError Response :=
  (Url.parsePlain url).mapError .federation |>.map fun u =>
    ⟨200, u, .error (.federation "not read"), .ok (profile url)⟩

/-- An actor is resolved. -/
def resolving (uri : String) : ActorEvent :=
  ⟨.resolve uri, steady serveProfile⟩

/-- The client where no redirect is followed and no host is an address. -/
def plainLibrary : Client.UrlLibrary :=
  ⟨Url.parsePlain, fun _ _ => none, fun _ => none⟩

theorem oneRowEach_empty (ext : External) :
  OneRowEach ext Db.empty
  := by
  constructor
  · intro a ha
    cases ha
  · intro a ha
    cases ha

/-- What is fetched while no actor is known is served by the client. -/
def FetchedFirst : Condition fedWorld :=
  fun q c db => ((FedRequest.fetched q c).all fun (_, response) =>
    (Client.checkUrl plainLibrary false response.url).toBool &&
      response.url.host.any (fun host => !host.toList.contains '/') &&
        startsWith response.url.path "/" && db.actors.rows.isEmpty) = true

instance : ∀ q c db, Decidable (FetchedFirst q c db) :=
  fun _ _ _ => inferInstanceAs (Decidable (_ = true))

theorem FetchedFirst.served {q : FedRequest} {c : fedWorld.Choice q} {db : Db}
    (h : FetchedFirst q c db) :
  ServedFrom plainLibrary false q c db ∧ SpelledAlike .plain q c db
  := by
  constructor
  · intro url response hanswer
    rw [FetchedFirst, hanswer] at h
    simp only [Option.all_some, Bool.and_eq_true] at h
    obtain ⟨⟨⟨hchecked, hhost⟩, hpath⟩, _⟩ := h
    constructor
    · cases hresult : Client.checkUrl plainLibrary false response.url with
      | ok u => rfl
      | error e =>
          rw [hresult] at hchecked
          cases hchecked
    · obtain ⟨host, hsome, hslash⟩ := (Option.any_eq_true _ _).mp hhost
      exact ⟨⟨host, hsome, by simpa using hslash⟩, hpath⟩
  · intro url response apActor hanswer _ _ a ha
    rw [FetchedFirst, hanswer] at h
    simp only [Option.all_some, Bool.and_eq_true, List.isEmpty_iff] at h
    have hrows : a ∈ db.actors.rows := ha
    rw [h.2] at hrows
    cases hrows

theorem one_row_each_known :
  Runs.Throughout (actorStep .plain)
    (fun db => OneRowEach .plain db ∧
      (∀ a : Actor, a.isLocal = true → (a ∈ db.actors ↔ a ∈ Db.empty.actors)) ∧
      ∀ uri, ∀ a ∈ db.actors, sameActorUri .plain uri a.apId = true →
        (FoundStored .plain uri a db ↔ uri = a.apId))
    [resolving "https://a.example/ann", resolving "https://a.example/ann"] Db.empty
  := by
  apply one_row_each .plain plainLibrary false (oneRowEach_empty .plain)
  rintro _ ⟨⟩
  constructor
  · have hfirst : (resolving "https://a.example/ann").Along .plain FetchedFirst Db.empty := by
      unfold ActorEvent.Along
      decide +kernel
    exact hfirst.mono fun _ _ _ => FetchedFirst.served
  · rintro _ ⟨⟩
    constructor
    · have hsecond : (resolving "https://a.example/ann").Along .plain FetchedFirst
          ((resolving "https://a.example/ann").after .plain Db.empty) := by
        unfold ActorEvent.Along
        decide +kernel
      exact hsecond.mono fun _ _ _ => FetchedFirst.served
    · trivial

/-- The same actor is stored under two spellings of its URI. -/
theorem two_rows :
  ∃ db, Runs.run (actorStep .plain)
      [resolving "https://a.example/ann", resolving "https://a.example/ann/"] Db.empty = some db ∧
    ¬ OneRowEach .plain db
  := by
  have hrows : (Runs.run (actorStep .plain)
      [resolving "https://a.example/ann", resolving "https://a.example/ann/"] Db.empty).map
        (fun db => db.actors.rows.map (·.apId)) =
      some ["https://a.example/ann/", "https://a.example/ann"] := by
    decide +kernel
  obtain ⟨db, hrun, hids⟩ := Option.map_eq_some_iff.mp hrows
  refine ⟨db, hrun, fun hdb => ?_⟩
  have hmem : ∀ id ∈ ["https://a.example/ann/", "https://a.example/ann"],
      ∃ a ∈ db.actors, a.apId = id := by
    intro id hid
    rw [← hids] at hid
    exact List.mem_map.mp hid
  obtain ⟨a, ha, hslash⟩ := hmem "https://a.example/ann/" List.mem_cons_self
  obtain ⟨b, hb, hplain⟩ := hmem "https://a.example/ann" (List.mem_cons_of_mem _ List.mem_cons_self)
  have hsame : sameActorUri .plain a.apId b.apId = true := by
    rw [hslash, hplain]
    decide +kernel
  obtain rfl := hdb.distinct a ha b hb hsame
  rw [hslash] at hplain
  revert hplain
  decide

end Federation
