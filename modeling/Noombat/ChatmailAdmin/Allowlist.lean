import Noombat.ChatmailAdmin.AccessMaps

/-!
# The allowlist of relays

The sidecar polls the document that names the relays of the federation, and writes the two
tables by which the mail server sends to them and accepts mail from them.  It remembers the set
of the last document, whether or not the tables could be written, and writes them only for
another set.  So the tables come to list a set just when they already did and the set is the one
remembered, or when it is another and both writes at that poll succeed; and a table lists exactly
the relays of a document only if each of them is a word that does not start like a comment,
which is not checked.
-/

namespace ChatmailAdmin

abbrev Domains : Type :=
  OrderedSet String

/-! ### Polls -/

/-- The answer to a poll; `none` is a body that is not JSON. -/
inductive Response where
  | failed (error : String)
  | answered (status : Nat) (etag : Option String) (body : Option Json)

/-- The result of one poll. -/
inductive FetchOutcome where
  /-- The set that is remembered stands. -/
  | unchanged
  | fetched (domains : Domains) (etag : Option String)

/-- The relays that a document names: an object with them in a field, or the one value. -/
def domainsFromJson : Json → Option (List String)
  | .obj fields =>
      (AccessMaps.field "domains" fields).bind fun
        | .arr items => items.mapM Json.asStr
        | _ => none
  | .arr [.arr items] => items.mapM Json.asStr
  | _ => none

/-- The set of the given domains. -/
def collect (domains : List String) : Domains :=
  .ofList (domains.map (·, ()))

def fetchAllowlist : Response → Except String FetchOutcome
  | .failed error => .error error
  | .answered status etag body =>
      if status = 304 then .ok .unchanged
      else
        match body.bind domainsFromJson with
        | none => .error "malformed allowlist document"
        | some domains => .ok (.fetched (collect domains) etag)

/-- A write succeeds, or what it leaves is good. -/
def Written.Lands {α : Type} (good : α → Prop) : Written α → Prop
  | done => True
  | failed left => good left

namespace Allowlist

def header : String :=
  "# Generated by noombat-chatmail-admin allowlist sync. Do not edit."

/-- The table of the relays to which mail is sent. -/
def transportMaps (domains : Domains) : String :=
  Postfix.writeln (header :: domains.keys.map fun d => d ++ " " ++ ("smtp:[" ++ d ++ "]"))

/-- The table of the relays from which mail is accepted, and of the null sender. -/
def senderDomains (domains : Domains) : String :=
  Postfix.writeln (header :: ("<>" :: domains.keys).map fun d => d ++ " " ++ "OK")

/-- The two files. -/
structure Maps where
  transport : Option String
  senders : Option String

/-- A poll: its answer, and how writes of the files end. -/
structure Poll where
  response : Response
  transport : Written (Option String)
  senders : Written (Option String)

/-- What the loop remembers, and the files. -/
structure Sync where
  etag : Option String
  lastDomains : Domains
  maps : Maps

/-- The loop when it starts. -/
def Sync.start (maps : Maps) : Sync :=
  ⟨none, .empty, maps⟩

/-- One turn of the loop. -/
def Sync.poll (s : Sync) (p : Poll) : Sync :=
  match fetchAllowlist p.response with
  | .error _ => s
  | .ok .unchanged => s
  | .ok (.fetched domains etag) =>
      if domains = s.lastDomains then { s with etag }
      else
        { etag
          lastDomains := domains
          maps := ⟨p.transport.result (some (transportMaps domains)),
            p.senders.result (some (senderDomains domains))⟩ }

def Sync.run (s : Sync) (polls : List Poll) : Sync :=
  polls.foldl Sync.poll s

/-! ### What the tables list -/

/-- A domain that is the key of the line that is written for it. -/
def Plain (domain : String) : Prop :=
  Postfix.IsWord domain ∧ Text.startsWith domain "#" = false

/-- The keys of a file. -/
def listed (file : Option String) : List String :=
  (file.map Postfix.keys).getD []

/-- A file lists a set of relays, and nothing else. -/
def ListsTransports (domains : Domains) (file : Option String) : Prop :=
  ∀ d, d ∈ listed file ↔ d ∈ domains

/-- A file lists a set of relays and the null sender, and nothing else. -/
def ListsSenders (domains : Domains) (file : Option String) : Prop :=
  ∀ d, d ∈ listed file ↔ d = "<>" ∨ d ∈ domains

/-- Both files list a set. -/
structure Lists (domains : Domains) (maps : Maps) : Prop where
  transport : ListsTransports domains maps.transport
  senders : ListsSenders domains maps.senders

/-- A poll obtains a set. -/
def Poll.Obtains (domains : Domains) (p : Poll) : Prop :=
  ∃ etag, fetchAllowlist p.response = .ok (.fetched domains etag)

/-- A poll is told that nothing has changed, or obtains a set again. -/
def Poll.Repeats (domains : Domains) (p : Poll) : Prop :=
  fetchAllowlist p.response = .ok .unchanged ∨ p.Obtains domains

/-- The files come to list a set at a poll that obtains it. -/
def Settles (domains : Domains) (before : Sync) (p : Poll) : Prop :=
  (∀ d ∈ domains, Plain d) ∧
    (domains = before.lastDomains → Lists domains before.maps) ∧
    (domains ≠ before.lastDomains → p.transport.Lands (ListsTransports domains) ∧
      p.senders.Lands (ListsSenders domains))

theorem keys_transportMaps {domains : Domains} (hplain : ∀ d ∈ domains, Plain d) :
  Postfix.keys (transportMaps domains) = domains.keys
  := by
  have hwords : ∀ d ∈ domains.keys, Plain d := hplain
  rw [transportMaps, Postfix.keys_writeln (by decide +kernel) (by decide +kernel) ?_
    fun d hd => (hwords d hd).1, List.filter_eq_self]
  · intro d hd
    rw [(hwords d hd).2, Bool.not_false]
  · intro d hd
    have hsolid : '\n' ∉ d.toList := (hwords d hd).1.no_newline
    simp [String.toList_append, hsolid]

theorem keys_senderDomains {domains : Domains} (hplain : ∀ d ∈ domains, Plain d) :
  Postfix.keys (senderDomains domains) = "<>" :: domains.keys
  := by
  have hwords : ∀ d ∈ "<>" :: domains.keys, Plain d := by
    intro d hd
    rcases List.mem_cons.mp hd with rfl | hd
    · have hchars : "<>".toList = ['<', '>'] := rfl
      refine ⟨⟨by decide, ?_⟩, by decide⟩
      simp [hchars, Postfix.isSpace]
    · exact hplain d hd
  rw [senderDomains, Postfix.keys_writeln (by decide +kernel) (by decide +kernel)
    (fun _ _ => by decide +kernel) fun d hd => (hwords d hd).1, List.filter_eq_self]
  intro d hd
  rw [(hwords d hd).2, Bool.not_false]

/-- What is written for relays that are plain lists them. -/
theorem lists_written {domains : Domains} (hplain : ∀ d ∈ domains, Plain d) :
  ListsTransports domains (some (transportMaps domains)) ∧
    ListsSenders domains (some (senderDomains domains))
  := by
  constructor
  · intro d
    change d ∈ Postfix.keys (transportMaps domains) ↔ _
    rw [keys_transportMaps hplain]
    exact OrderedMap.mem_keys
  · intro d
    change d ∈ Postfix.keys (senderDomains domains) ↔ _
    rw [keys_senderDomains hplain, List.mem_cons]
    exact or_congr_right OrderedMap.mem_keys

/-- Relays that a file lists are plain. -/
theorem plain_of_listsTransports {domains : Domains} {file : Option String}
    (h : ListsTransports domains file) :
  ∀ d ∈ domains, Plain d
  := by
  intro d hd
  have hlisted := (h d).mpr hd
  cases file with
  | none => cases hlisted
  | some table => exact Postfix.isWord_of_mem_keys hlisted

/-! ### Polls that repeat a set -/

theorem poll_unchanged {s : Sync} {p : Poll} (h : fetchAllowlist p.response = .ok .unchanged) :
  s.poll p = s
  := by
  rw [Sync.poll, h]

theorem poll_obtains {domains : Domains} {s : Sync} {p : Poll} (h : p.Obtains domains) :
  (s.poll p).lastDomains = domains ∧
    (domains = s.lastDomains → (s.poll p).maps = s.maps) ∧
    (domains ≠ s.lastDomains → (s.poll p).maps =
      ⟨p.transport.result (some (transportMaps domains)),
        p.senders.result (some (senderDomains domains))⟩)
  := by
  obtain ⟨etag, h⟩ := h
  rw [Sync.poll, h]
  dsimp only
  split
  · rename_i hsame
    exact ⟨hsame.symm, fun _ => rfl, fun hne => absurd hsame hne⟩
  · rename_i hne
    exact ⟨rfl, fun hsame => absurd hsame hne, fun _ => rfl⟩

/-- After a set is obtained, polls that repeat it change no file. -/
theorem run_repeats {domains : Domains} {s : Sync} {polls : List Poll}
    (hlast : s.lastDomains = domains) (hrepeats : ∀ p ∈ polls, p.Repeats domains) :
  (s.run polls).maps = s.maps
  := by
  induction polls generalizing s with
  | nil => rfl
  | cons p polls ih =>
      have hrest : ∀ p ∈ polls, p.Repeats domains :=
        fun p hp => hrepeats p (List.mem_cons_of_mem _ hp)
      change ((s.poll p).run polls).maps = s.maps
      rcases hrepeats p List.mem_cons_self with hunchanged | hobtains
      · rw [poll_unchanged hunchanged]
        exact ih hlast hrest
      · obtain ⟨hlast', hsame, _⟩ := poll_obtains (s := s) hobtains
        rw [ih hlast' hrest, hsame hlast.symm]

theorem lands_result {good : Option String → Prop} {file : Option String} {w : Written (Option String)}
    (hgood : good file) :
  good (w.result file) ↔ w.Lands good
  := by
  cases w with
  | done => exact iff_of_true hgood trivial
  | failed left => exact Iff.rfl

/-- In every history of polls, after one that obtains a set and any number that repeat it, both
files list the set just when they come to at that poll. -/
theorem allowlist_converges_iff (files : Maps) (history : List Poll) (domains : Domains)
    (first : Poll) (rest : List Poll) (hfirst : first.Obtains domains)
    (hrest : ∀ p ∈ rest, p.Repeats domains) :
  Lists domains ((Sync.start files).run (history ++ first :: rest)).maps ↔
    Settles domains ((Sync.start files).run history) first
  := by
  have hsplit : (Sync.start files).run (history ++ first :: rest) =
      (((Sync.start files).run history).poll first).run rest := by
    rw [Sync.run, List.foldl_append]
    rfl
  obtain ⟨hlast, hsame, hother⟩ :=
    poll_obtains (s := (Sync.start files).run history) hfirst
  rw [hsplit, run_repeats hlast hrest]
  constructor
  · intro hlists
    refine ⟨plain_of_listsTransports hlists.transport, ?_, ?_⟩
    · intro h
      rw [← hsame h]
      exact hlists
    · intro h
      have hplain := plain_of_listsTransports hlists.transport
      obtain ⟨htransport, hsenders⟩ := lists_written hplain
      rw [hother h] at hlists
      exact ⟨(lands_result htransport).mp hlists.transport,
        (lands_result hsenders).mp hlists.senders⟩
  · rintro ⟨hplain, hkept, hwritten⟩
    by_cases h : domains = ((Sync.start files).run history).lastDomains
    · rw [hsame h]
      exact hkept h
    · obtain ⟨htransport, hsenders⟩ := lists_written hplain
      obtain ⟨htransport', hsenders'⟩ := hwritten h
      rw [hother h]
      exact ⟨(lands_result htransport).mpr htransport', (lands_result hsenders).mpr hsenders'⟩

/-- The document with the given relays. -/
def document (domains : List String) : Response :=
  .answered 200 none (some (.obj [("domains", .arr (domains.map .str))]))

/-- Of two relays, one can be sent to and not received from, however often the same document is
obtained, if the one write at which it is new fails. -/
theorem allowlist_diverges :
  ∃ (first : Poll) (rest : List Poll), first.Obtains (collect ["a.example"]) ∧
    (∀ p ∈ rest, p.Repeats (collect ["a.example"]) ∧ p.transport = .done ∧ p.senders = .done) ∧
    rest ≠ [] ∧
    let maps := ((Sync.start ⟨none, none⟩).run (first :: rest)).maps
    listed maps.transport = ["a.example"] ∧ listed maps.senders = [] ∧
      ¬ Lists (collect ["a.example"]) maps
  := by
  refine ⟨⟨document ["a.example"], .done, .failed none⟩, [⟨document ["a.example"], .done, .done⟩],
    ⟨none, rfl⟩, ?_, List.cons_ne_nil _ _, ?_, rfl, ?_⟩
  · intro p hp
    obtain rfl := List.mem_singleton.mp hp
    exact ⟨.inr ⟨none, rfl⟩, rfl, rfl⟩
  · decide +kernel
  · intro hlists
    have hmem := (hlists.senders "a.example").mpr (.inr (by decide))
    cases hmem

/-- A relay that a document names for the first time is listed, and still is when nothing has
changed. -/
theorem allowlist_converges_new :
  Lists (collect ["a.example"]) ((Sync.start ⟨none, none⟩).run
    ([] ++ ⟨document ["a.example"], .done, .done⟩ :: [⟨.answered 304 none none, .done, .done⟩])).maps
  := by
  apply (allowlist_converges_iff ⟨none, none⟩ [] (collect ["a.example"])
    ⟨document ["a.example"], .done, .done⟩ [⟨.answered 304 none none, .done, .done⟩]
    ⟨none, rfl⟩ ?_).mpr
  · refine ⟨?_, ?_, fun _ => ⟨trivial, trivial⟩⟩
    · intro d hd
      obtain rfl := List.mem_singleton.mp (show d ∈ ["a.example"] from hd)
      have hchars : "a.example".toList = ['a', '.', 'e', 'x', 'a', 'm', 'p', 'l', 'e'] := rfl
      refine ⟨⟨by decide, ?_⟩, by decide⟩
      simp [hchars, Postfix.isSpace]
    · intro h
      cases congrArg OrderedMap.entries h
  · intro p hp
    obtain rfl := List.mem_singleton.mp hp
    exact .inl rfl

end Allowlist

end ChatmailAdmin
