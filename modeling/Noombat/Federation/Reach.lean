import Mathlib.Data.List.Basic
import Noombat.Core.Net
import Noombat.Federation.Client

/-!
# Where the outbound client connects

All fetches and deliveries share one client.  It sends a request on an idle connection to the same
site, or opens one: to the address that the host is a literal of, or to one of those that its name
resolves to.  Fetches run side by side.  What a name resolves to, which addresses are tried, what
a server answers and which connections stay open is not up to the client, and may be otherwise at
each request.
-/

open Core

namespace Federation.Client

/-! ### The client -/

/-- What is not part of this program: the parser of URLs, how the target of a redirect is
resolved, and how addresses are read and displayed. -/
structure AddressLibrary where
  parse : String → Except String Url
  join : Url → String → Option Url
  parseIp : String → Option IpAddr
  display : IpAddr → String

def AddressLibrary.toUrlLibrary (lib : AddressLibrary) : UrlLibrary where
  parse := lib.parse
  join := lib.join
  privateAddress bare := ((lib.parseIp bare).filter isPrivateIp).map lib.display

/-- Whether an instance domain is a loopback name. -/
def domainIsLocal (domain : String) : Bool :=
  let host := ((Text.split ':' domain).head?).getD domain
  host == "localhost" || ".localhost".toList.isSuffixOf host.toList || host == "127.0.0.1" ||
    host == "[::1]"

/-- The host without the brackets of a literal. -/
def bareHost (host : String) : String :=
  Text.trimEndMatches ']' (Text.trimStartMatches '[' host)

variable (lib : AddressLibrary) (allowLocalTargets : Bool)

/-- The addresses that a name may be reached at, when a lookup has the given outcome. -/
def resolve (host : String) (lookup : Except String (List IpAddr)) :
    Except String (List IpAddr) :=
  match lookup with
  | .error e => .error s!"DNS resolution failed for {host}: {e}"
  | .ok addrs =>
      if addrs.isEmpty then .error s!"DNS resolution returned no addresses for {host}"
      else if !allowLocalTargets && addrs.any isPrivateIp then
        .error s!"{host} resolves to a private or reserved address; refusing to fetch"
      else .ok addrs

/-- The addresses that a host may be reached at.  A literal is not resolved. -/
def addresses (host : String) (lookup : Except String (List IpAddr)) :
    Except String (List IpAddr) :=
  match lib.parseIp (bareHost host) with
  | some ip => .ok [ip]
  | none => resolve allowLocalTargets (bareHost host) lookup

/-! ### Connections and requests -/

/-- A connection to a site, at one of its addresses. -/
structure Connection where
  origin : Url.Origin
  address : IpAddr
  deriving DecidableEq

/-- A request of a fetch, when `visited` URLs have been requested, this one included. -/
structure Request where
  fetch : Nat
  /-- Whether the URL that the fetch starts from is checked. -/
  guarded : Bool
  visited : Nat
  url : Url
  deriving DecidableEq

/-- What the rest of the world does with a request. -/
structure Exchange where
  /-- Which idle connection is offered. -/
  idle : Option Nat
  lookup : Except String (List IpAddr)
  /-- Which of the addresses are tried, the last of them with success if `connected`. -/
  tried : List Nat
  connected : Bool
  answer : Answer
  /-- Whether the connection stays open. -/
  kept : Bool

inductive Event where
  | opened (request : Request) (address : IpAddr)
  | sent (request : Request) (address : IpAddr)
  deriving DecidableEq

namespace Event

def request : Event → Request
  | opened request _ => request
  | sent request _ => request

def address : Event → IpAddr
  | opened _ address => address
  | sent _ address => address

/-- Whether a request of a fetch is sent. -/
def isSentBy (n : Nat) : Event → Bool
  | opened _ _ => false
  | sent request _ => request.fetch == n

end Event

structure State where
  idle : List Connection
  /-- The requests that are to be sent. -/
  due : List Request
  started : Nat
  log : List Event

def State.initial : State :=
  ⟨[], [], 0, []⟩

inductive Action where
  /-- `guarded_get` and those like it, which check the URL. -/
  | guarded (url : String)
  /-- A request with the client itself. -/
  | raw (url : String)
  /-- One of the requests that are due is sent. -/
  | proceed (i : Nat) (e : Exchange)

namespace State

/-- A fetch starts from a URL. -/
def start (guarded : Bool) (url : Url) (s : State) : State :=
  { s with
    due := ⟨s.started, guarded, 1, url⟩ :: s.due
    started := s.started + 1 }

/-- The idle connection that serves a URL, if one is offered that does. -/
def reused (url : Url) (idle : Option Nat) (s : State) : Option Connection :=
  (idle.bind (s.idle[·]?)).filter (·.origin == url.origin)

/-- A new connection for a request. -/
def opened (r : Request) (host : String) (e : Exchange) (s : State) : Option Connection × State :=
  match addresses lib allowLocalTargets host e.lookup with
  | .error _ => (none, s)
  | .ok addrs =>
      let tried := e.tried.filterMap (addrs[·]?)
      let s := { s with log := tried.reverse.map (Event.opened r) ++ s.log }
      if e.connected then (tried.getLast?.map (Connection.mk r.url.origin), s) else (none, s)

/-- The connection that a request is sent on, if there is one. -/
def connect (r : Request) (e : Exchange) (s : State) : Option Connection × State :=
  match s.reused r.url e.idle with
  | some c => (some c, { s with idle := s.idle.erase c })
  | none =>
      match r.url.host with
      | none => (none, s)
      | some host => s.opened lib allowLocalTargets r host e

/-- A request is answered. -/
def answered (r : Request) (answer : Answer) (s : State) : State :=
  match answer with
  | .failed _ => s
  | .response status location _ =>
      match redirectTarget lib.toUrlLibrary r.url status location with
      | none => s
      | some next =>
          match redirectDecision lib.toUrlLibrary allowLocalTargets r.visited next with
          | .error _ => s
          | .ok () => { s with due := ⟨r.fetch, r.guarded, r.visited + 1, next⟩ :: s.due }

/-- A request is sent, if there is a connection for it. -/
def send (r : Request) (e : Exchange) (s : State) : State :=
  match s.connect lib allowLocalTargets r e with
  | (none, s) => s
  | (some c, s) =>
      let s := { s with
        log := .sent r c.address :: s.log
        idle := if e.kept then c :: s.idle else s.idle }
      s.answered lib allowLocalTargets r e.answer

def step (s : State) : Action → State
  | .guarded url =>
      match lib.parse url with
      | .error _ => s
      | .ok u =>
          match checkUrl lib.toUrlLibrary allowLocalTargets u with
          | .error _ => s
          | .ok () => s.start true u
  | .raw url =>
      match lib.parse url with
      | .error _ => s
      | .ok u => if u.host = none ∨ u.scheme ∉ ["http", "https"] then s else s.start false u
  | .proceed i e =>
      match s.due[i]? with
      | none => s
      | some r => send lib allowLocalTargets r e { s with due := s.due.eraseIdx i }

def run (actions : List Action) : State :=
  actions.foldl (step lib allowLocalTargets) initial

end State

/-! ### What is checked -/

variable {lib : AddressLibrary}

/-- What a URL is like that passes the check. -/
structure Checked (lib : AddressLibrary) (u : Url) : Prop where
  scheme : u.scheme = "https"
  username : u.username = ""
  password : u.password = none
  literal : ∃ host, u.host = some host ∧
    ∀ ip, lib.parseIp (bareHost host) = some ip → isPrivateIp ip = false

theorem checked_of_checkUrl {u : Url} (h : checkUrl lib.toUrlLibrary false u = .ok ()) :
  Checked lib u
  := by
  unfold checkUrl at h
  split at h
  · cases h
  · rename_i hscheme
    split at h
    · cases h
    · rename_i host hhost
      dsimp only at h
      split at h
      · cases h
      · rename_i hliteral
        split at h
        · cases h
        · rename_i hcredentials
          obtain ⟨husername, hpassword⟩ := not_or.mp hcredentials
          constructor
          · simpa using hscheme
          · exact not_not.mp husername
          · simpa using hpassword
          · use host, (Option.filter_eq_some_iff.mp hhost).1
            intro ip hip
            apply Bool.eq_false_iff.mpr
            intro hprivate
            change Option.filter _ (((lib.parseIp (bareHost host)).filter isPrivateIp).map _) = _
              at hliteral
            rw [hip, Option.filter_some, if_pos hprivate] at hliteral
            cases hliteral

/-- A connection that a URL which is checked may be served on leads to no private address. -/
def Connection.Safe (lib : AddressLibrary) (c : Connection) : Prop :=
  ∀ u : Url, Checked lib u → c.origin = u.origin → isPrivateIp c.address = false

/-- No address that is to be tried for a URL which is checked is private. -/
theorem public_of_addresses {u : Url} (hu : Checked lib u) {host : String}
    (hhost : u.host = some host) {lookup : Except String (List IpAddr)} {addrs : List IpAddr}
    (h : addresses lib false host lookup = .ok addrs) :
  ∀ ip ∈ addrs, isPrivateIp ip = false
  := by
  obtain ⟨host', hhost', hliteral⟩ := hu.literal
  obtain rfl := Option.some.inj (hhost.symm.trans hhost')
  unfold addresses at h
  split at h
  · rename_i ip hip
    cases h
    intro ip' hmem
    obtain rfl := List.mem_singleton.mp hmem
    exact hliteral ip' hip
  · unfold resolve at h
    split at h
    · cases h
    · split at h
      · cases h
      · split at h
        · cases h
        · rename_i hprivate
          cases h
          intro ip hmem
          apply Bool.eq_false_iff.mpr
          intro hip
          exact hprivate (List.any_eq_true.mpr ⟨ip, hmem, hip⟩)

/-- A name is resolved to no private address, whatever URL it is of. -/
theorem safe_of_addresses {u : Url} {host : String} (hhost : u.host = some host)
    {lookup : Except String (List IpAddr)} {addrs : List IpAddr}
    (h : addresses lib false host lookup = .ok addrs) {ip : IpAddr} (hip : ip ∈ addrs) :
  Connection.Safe lib ⟨u.origin, ip⟩
  := by
  intro u' hu' horigin
  have hhost' : u'.host = some host := by
    rw [← hhost]
    exact congrArg (·.2.1) horigin.symm
  exact public_of_addresses hu' hhost' h ip hip

/-! ### Runs -/

/-- Whether the URL of a request was checked. -/
def Request.IsChecked (r : Request) : Prop :=
  r.guarded = true ∨ 1 < r.visited

/-- An event that is in order: a request whose URL was checked goes to a public address. -/
def Event.Proper (lib : AddressLibrary) (e : Event) : Prop :=
  e.request.IsChecked → Checked lib e.request.url ∧ isPrivateIp e.address = false

namespace State

structure Sound (lib : AddressLibrary) (s : State) : Prop where
  idle : ∀ c ∈ s.idle, c.Safe lib
  due : ∀ r ∈ s.due, r.IsChecked → Checked lib r.url
  log : ∀ e ∈ s.log, e.Proper lib

/-- The requests that were sent are counted, and one that is due counts those before it. -/
structure Counted (s : State) : Prop where
  apart : s.due.Pairwise fun r r' => r.fetch ≠ r'.fetch
  fresh : ∀ r ∈ s.due, r.fetch < s.started
  due : ∀ r ∈ s.due, s.log.countP (Event.isSentBy r.fetch) + 1 = r.visited ∧ r.visited ≤ 3
  few : ∀ n, s.log.countP (Event.isSentBy n) ≤ 3
  unstarted : ∀ n, s.started ≤ n → s.log.countP (Event.isSentBy n) = 0

end State

namespace State

variable {s : State}

theorem sound_start {guarded : Bool} {url : Url} (hs : Sound lib s)
    (h : guarded = true → Checked lib url) :
  Sound lib (s.start guarded url)
  := by
  constructor
  · exact hs.idle
  · intro r hr hchecked
    obtain rfl | hr := List.mem_cons.mp hr
    · apply h
      obtain hguarded | hvisited := hchecked
      · exact hguarded
      · exact absurd hvisited (Nat.lt_irrefl 1)
    · exact hs.due r hr hchecked
  · exact hs.log

theorem mem_of_reused {url : Url} {idle : Option Nat} {c : Connection}
    (h : s.reused url idle = some c) :
  c ∈ s.idle ∧ c.origin = url.origin
  := by
  obtain ⟨hmem, horigin⟩ := Option.filter_eq_some_iff.mp h
  obtain ⟨i, _, hi⟩ := Option.bind_eq_some_iff.mp hmem
  exact ⟨List.mem_of_getElem? hi, beq_iff_eq.mp horigin⟩

/-- What connecting does: events of attempts are recorded, and no idle connection is added. -/
theorem sound_connect {r : Request} {e : Exchange} (hs : Sound lib s)
    (hr : r.IsChecked → Checked lib r.url) :
  Sound lib (s.connect lib false r e).2 ∧
    ∀ c, (s.connect lib false r e).1 = some c →
      c.Safe lib ∧ (r.IsChecked → isPrivateIp c.address = false)
  := by
  unfold connect
  split
  · rename_i c hreused
    obtain ⟨hmem, horigin⟩ := mem_of_reused hreused
    constructor
    · constructor
      · intro c' hc'
        exact hs.idle c' (List.mem_of_mem_erase hc')
      · exact hs.due
      · exact hs.log
    · intro c' hc'
      obtain rfl := Option.some.inj hc'
      exact ⟨hs.idle c hmem, fun hchecked => hs.idle c hmem r.url (hr hchecked) horigin⟩
  · split
    · refine ⟨hs, ?_⟩
      intro c hc
      cases hc
    · rename_i host hhost
      unfold opened
      split
      · refine ⟨hs, ?_⟩
        intro c hc
        cases hc
      · rename_i addrs haddrs
        have htried : ∀ ip ∈ e.tried.filterMap (addrs[·]?), ip ∈ addrs := by
          intro ip hip
          obtain ⟨i, _, hi⟩ := List.mem_filterMap.mp hip
          exact List.mem_of_getElem? hi
        have hsound : Sound lib { s with
            log := (e.tried.filterMap (addrs[·]?)).reverse.map (Event.opened r) ++ s.log } := by
          constructor
          · exact hs.idle
          · exact hs.due
          · intro event hevent
            obtain hopened | hold := List.mem_append.mp hevent
            · obtain ⟨ip, hip, rfl⟩ := List.mem_map.mp hopened
              intro hchecked
              exact ⟨hr hchecked,
                public_of_addresses (hr hchecked) hhost haddrs ip (htried ip (List.mem_reverse.mp hip))⟩
            · exact hs.log event hold
        dsimp only
        split
        · refine ⟨hsound, ?_⟩
          intro c hc
          obtain ⟨ip, hlast, rfl⟩ := Option.map_eq_some_iff.mp hc
          have hip := htried ip (List.mem_of_getLast? hlast)
          exact ⟨safe_of_addresses hhost haddrs hip,
            fun hchecked => public_of_addresses (hr hchecked) hhost haddrs ip hip⟩
        · refine ⟨hsound, ?_⟩
          intro c hc
          cases hc

theorem sound_answered {r : Request} {answer : Answer} (hs : Sound lib s) :
  Sound lib (s.answered lib false r answer)
  := by
  unfold answered
  split
  · exact hs
  · split
    · exact hs
    · rename_i next _
      split
      · exact hs
      · rename_i hdecision
        constructor
        · exact hs.idle
        · intro r' hr' hchecked
          obtain rfl | hr' := List.mem_cons.mp hr'
          · unfold redirectDecision at hdecision
            split at hdecision
            · cases hdecision
            · apply checked_of_checkUrl
              cases hcheck : checkUrl lib.toUrlLibrary false next with
              | error e =>
                  rw [hcheck] at hdecision
                  cases hdecision
              | ok u => rfl
          · exact hs.due r' hr' hchecked
        · exact hs.log

theorem sound_send {r : Request} {e : Exchange} (hs : Sound lib s)
    (hr : r.IsChecked → Checked lib r.url) :
  Sound lib (send lib false r e s)
  := by
  obtain ⟨hsound, hc⟩ := @sound_connect lib s r e hs hr
  unfold send
  split
  · rename_i s' hconnect
    rw [hconnect] at hsound
    exact hsound
  · rename_i c s' hconnect
    rw [hconnect] at hsound hc
    obtain ⟨hsafe, hpublic⟩ := hc c rfl
    apply sound_answered
    constructor
    · intro c' hc'
      dsimp only at hc'
      split at hc'
      · obtain rfl | hc' := List.mem_cons.mp hc'
        · exact hsafe
        · exact hsound.idle c' hc'
      · exact hsound.idle c' hc'
    · exact hsound.due
    · intro event hevent
      obtain rfl | hevent := List.mem_cons.mp hevent
      · intro hchecked
        exact ⟨hr hchecked, hpublic hchecked⟩
      · exact hsound.log event hevent

theorem sound_step (hs : Sound lib s) (a : Action) :
  Sound lib (step lib false s a)
  := by
  cases a with
  | guarded url =>
      rw [step]
      split
      · exact hs
      · rename_i u _
        split
        · exact hs
        · rename_i hcheck
          apply sound_start hs
          intro _
          apply checked_of_checkUrl hcheck
  | raw url =>
      rw [step]
      split
      · exact hs
      · split
        · exact hs
        · apply sound_start hs
          intro h
          cases h
  | proceed i e =>
      rw [step]
      split
      · exact hs
      · rename_i r hr
        apply sound_send
        · constructor
          · exact hs.idle
          · intro r' hr'
            exact hs.due r' (List.mem_of_mem_eraseIdx hr')
          · exact hs.log
        · exact hs.due r (List.mem_of_getElem? hr)

theorem sound_run (actions : List Action) :
  Sound lib (run lib false actions)
  := by
  have hsteps : ∀ s, Sound lib s → Sound lib (actions.foldl (step lib false) s) := by
    induction actions with
    | nil => exact fun _ h => h
    | cons a actions ih => exact fun s h => ih _ (sound_step h a)
  apply hsteps
  constructor
  · intro c hc
    cases hc
  · intro r hr
    cases hr
  · intro e he
    cases he

/-! ### Counting -/

theorem countP_opened (n : Nat) (r : Request) (addrs : List IpAddr) (log : List Event) :
  (addrs.map (Event.opened r) ++ log).countP (Event.isSentBy n) = log.countP (Event.isSentBy n)
  := by
  rw [List.countP_append, List.countP_map]
  have hnone : Event.isSentBy n ∘ Event.opened r = fun _ => false := rfl
  rw [hnone, List.countP_false]
  exact Nat.zero_add _

/-- Connecting sends nothing, and no request becomes due. -/
theorem connect_frame (r : Request) (e : Exchange) (s : State) :
  (s.connect lib false r e).2.due = s.due ∧
    (s.connect lib false r e).2.started = s.started ∧
    ∀ n, (s.connect lib false r e).2.log.countP (Event.isSentBy n) =
      s.log.countP (Event.isSentBy n)
  := by
  unfold connect
  split
  · exact ⟨rfl, rfl, fun _ => rfl⟩
  · split
    · exact ⟨rfl, rfl, fun _ => rfl⟩
    · unfold opened
      split
      · exact ⟨rfl, rfl, fun _ => rfl⟩
      · dsimp only
        split
        · exact ⟨rfl, rfl, fun n => countP_opened n r _ _⟩
        · exact ⟨rfl, rfl, fun n => countP_opened n r _ _⟩

theorem counted_start {guarded : Bool} {url : Url} (hs : Counted s) :
  Counted (s.start guarded url)
  := by
  constructor
  · apply List.pairwise_cons.mpr
    refine ⟨?_, hs.apart⟩
    intro r hr
    exact Nat.ne_of_gt (hs.fresh r hr)
  · intro r hr
    obtain rfl | hr := List.mem_cons.mp hr
    · exact Nat.lt_succ_self _
    · exact Nat.lt_succ_of_lt (hs.fresh r hr)
  · intro r hr
    obtain rfl | hr := List.mem_cons.mp hr
    · change s.log.countP (Event.isSentBy s.started) + 1 = 1 ∧ 1 ≤ 3
      rw [hs.unstarted _ (Nat.le_refl _)]
      decide
    · exact hs.due r hr
  · exact hs.few
  · intro n hn
    exact hs.unstarted n (Nat.le_of_succ_le hn)

theorem countP_sent (n : Nat) (r : Request) (address : IpAddr) (log : List Event) :
  (Event.sent r address :: log).countP (Event.isSentBy n) =
    log.countP (Event.isSentBy n) + if r.fetch = n then 1 else 0
  := by
  rw [List.countP_cons]
  simp [Event.isSentBy]

/-- A request is sent that was due. -/
theorem counted_sent {r : Request} (hs : Counted s) (hapart : ∀ r' ∈ s.due, r'.fetch ≠ r.fetch)
    (hfresh : r.fetch < s.started)
    (hcount : s.log.countP (Event.isSentBy r.fetch) + 1 = r.visited) (hvisited : r.visited ≤ 3)
    (address : IpAddr) (idle : List Connection) :
  Counted { s with log := .sent r address :: s.log, idle := idle } ∧
    (Event.sent r address :: s.log).countP (Event.isSentBy r.fetch) = r.visited
  := by
  have hsent : (Event.sent r address :: s.log).countP (Event.isSentBy r.fetch) = r.visited := by
    rw [countP_sent, if_pos rfl]
    exact hcount
  refine ⟨?_, hsent⟩
  constructor
  · exact hs.apart
  · exact hs.fresh
  · intro r' hr'
    dsimp only
    rw [countP_sent, if_neg (hapart r' hr').symm]
    exact hs.due r' hr'
  · intro n
    by_cases hn : r.fetch = n
    · subst hn
      exact Nat.le_trans (Nat.le_of_eq hsent) hvisited
    · dsimp only
      rw [countP_sent, if_neg hn]
      exact hs.few n
  · intro n hn
    dsimp only at hn ⊢
    rw [countP_sent, if_neg (by omega)]
    exact hs.unstarted n hn

/-- A request that was sent may be redirected. -/
theorem counted_answered {r : Request} {answer : Answer} (hs : Counted s)
    (hapart : ∀ r' ∈ s.due, r'.fetch ≠ r.fetch) (hfresh : r.fetch < s.started)
    (hcount : s.log.countP (Event.isSentBy r.fetch) = r.visited) :
  Counted (s.answered lib false r answer)
  := by
  unfold answered
  split
  · exact hs
  · split
    · exact hs
    · split
      · exact hs
      · rename_i hdecision
        have hvisited : r.visited ≤ 2 := by
          unfold redirectDecision at hdecision
          split at hdecision
          · cases hdecision
          · rename_i hle
            exact Nat.le_of_not_lt hle
        constructor
        · apply List.pairwise_cons.mpr
          exact ⟨fun r' hr' => (hapart r' hr').symm, hs.apart⟩
        · intro r' hr'
          obtain rfl | hr' := List.mem_cons.mp hr'
          · exact hfresh
          · exact hs.fresh r' hr'
        · intro r' hr'
          obtain rfl | hr' := List.mem_cons.mp hr'
          · exact ⟨congrArg (· + 1) hcount, Nat.succ_le_succ hvisited⟩
          · exact hs.due r' hr'
        · exact hs.few
        · exact hs.unstarted

theorem counted_send {r : Request} {e : Exchange} (hs : Counted s)
    (hapart : ∀ r' ∈ s.due, r'.fetch ≠ r.fetch) (hfresh : r.fetch < s.started)
    (hcount : s.log.countP (Event.isSentBy r.fetch) + 1 = r.visited) (hvisited : r.visited ≤ 3) :
  Counted (send lib false r e s)
  := by
  obtain ⟨hdue, hstarted, hlog⟩ := @connect_frame lib r e s
  unfold send
  generalize s.connect lib false r e = connected at hdue hstarted hlog
  obtain ⟨c, s'⟩ := connected
  dsimp only at hdue hstarted hlog
  have hs' : Counted s' := by
    constructor
    · rw [hdue]
      exact hs.apart
    · rw [hdue, hstarted]
      exact hs.fresh
    · rw [hdue]
      intro r' hr'
      rw [hlog]
      exact hs.due r' hr'
    · intro n
      rw [hlog]
      exact hs.few n
    · intro n hn
      rw [hlog]
      exact hs.unstarted n (by rwa [hstarted] at hn)
  cases c with
  | none => exact hs'
  | some c =>
      have hsent := counted_sent hs' (by rwa [hdue]) (by rwa [hstarted]) (by rwa [hlog]) hvisited
        c.address (if e.kept then c :: s'.idle else s'.idle)
      apply counted_answered hsent.1
      · rw [← hdue] at hapart
        exact hapart
      · exact hstarted.symm ▸ hfresh
      · exact hsent.2

/-- A request that is taken out of those that are due is of another fetch than they. -/
theorem apart_of_eraseIdx {due : List Request} (h : due.Pairwise fun r r' => r.fetch ≠ r'.fetch)
    {i : Nat} {r : Request} (hi : due[i]? = some r) :
  (due.eraseIdx i).Pairwise (fun r r' => r.fetch ≠ r'.fetch) ∧
    ∀ r' ∈ due.eraseIdx i, r'.fetch ≠ r.fetch
  := by
  induction due generalizing i with
  | nil => cases hi
  | cons r₀ due ih =>
      obtain ⟨hhead, htail⟩ := List.pairwise_cons.mp h
      cases i with
      | zero =>
          obtain rfl := Option.some.inj hi
          exact ⟨htail, fun r' hr' => (hhead r' hr').symm⟩
      | succ i =>
          obtain ⟨hpairwise, hothers⟩ := ih htail hi
          constructor
          · apply List.pairwise_cons.mpr
            exact ⟨fun r' hr' => hhead r' (List.mem_of_mem_eraseIdx hr'), hpairwise⟩
          · intro r' hr'
            obtain rfl | hr' := List.mem_cons.mp hr'
            · exact hhead r (List.mem_of_getElem? hi)
            · exact hothers r' hr'

theorem counted_step (hs : Counted s) (a : Action) :
  Counted (step lib false s a)
  := by
  cases a with
  | guarded url =>
      rw [step]
      split
      · exact hs
      · split
        · exact hs
        · exact counted_start hs
  | raw url =>
      rw [step]
      split
      · exact hs
      · split
        · exact hs
        · exact counted_start hs
  | proceed i e =>
      rw [step]
      split
      · exact hs
      · rename_i r hr
        obtain ⟨hpairwise, hothers⟩ := apart_of_eraseIdx hs.apart hr
        have hmem := List.mem_of_getElem? hr
        obtain ⟨hcount, hvisited⟩ := hs.due r hmem
        apply counted_send
        · constructor
          · exact hpairwise
          · intro r' hr'
            exact hs.fresh r' (List.mem_of_mem_eraseIdx hr')
          · intro r' hr'
            exact hs.due r' (List.mem_of_mem_eraseIdx hr')
          · exact hs.few
          · exact hs.unstarted
        · exact hothers
        · exact hs.fresh r hmem
        · exact hcount
        · exact hvisited

theorem counted_run (actions : List Action) :
  Counted (run lib false actions)
  := by
  have hsteps : ∀ s, Counted s → Counted (actions.foldl (step lib false) s) := by
    induction actions with
    | nil => exact fun _ h => h
    | cons a actions ih => exact fun s h => ih _ (counted_step h a)
  apply hsteps
  constructor
  · exact List.Pairwise.nil
  · intro r hr
    cases hr
  · intro r hr
    cases hr
  · intro n
    exact Nat.zero_le 3
  · intro n _
    rfl

end State

/-- Of an instance whose domain is no loopback name, whatever names resolve to and servers answer,
no request goes to an address that is reserved, in the clear or with credentials, unless it is the
first of a fetch that does not check its URL; and no fetch sends more than three. -/
theorem requests_stay_public (lib : AddressLibrary) {domain : String}
    (hdomain : domainIsLocal domain = false) (actions : List Action) :
  let s := State.run lib (domainIsLocal domain) actions
  (∀ e ∈ s.log, e.request.guarded = true ∨ 1 < e.request.visited →
    e.request.url.scheme = "https" ∧ e.request.url.username = "" ∧
      e.request.url.password = none ∧ ¬ Reserved e.address) ∧
  ∀ n, s.log.countP (Event.isSentBy n) ≤ 3
  := by
  rw [hdomain]
  constructor
  · intro e he hchecked
    obtain ⟨hu, hpublic⟩ := (State.sound_run actions).log e he hchecked
    refine ⟨hu.scheme, hu.username, hu.password, ?_⟩
    intro hreserved
    rw [isPrivateIp_of_reserved hreserved] at hpublic
    cases hpublic
  · exact (@State.counted_run lib actions).few

/-- A library that reads plain URLs and one literal. -/
def metadataLibrary : AddressLibrary where
  parse := Url.parsePlain
  join _ location := (Url.parsePlain location).toOption
  parseIp s := if s = "169.254.169.254" then some (.v4 ⟨169, 254, 169, 254⟩) else none
  display _ := "169.254.169.254"

/-- A server that redirects to the address of a metadata service. -/
def metadataActions : List Action :=
  [.guarded "https://remote.example/users/a",
   .proceed 0
    { idle := none
      lookup := .ok [.v4 ⟨93, 184, 216, 34⟩]
      tried := [0]
      connected := true
      answer := .response 302 (some "https://169.254.169.254/latest") none
      kept := true }]

theorem requests_stay_public_metadata :
  let s := State.run metadataLibrary (domainIsLocal "noombat.example") metadataActions
  (∀ e ∈ s.log, e.request.guarded = true ∨ 1 < e.request.visited →
    e.request.url.scheme = "https" ∧ e.request.url.username = "" ∧
      e.request.url.password = none ∧ ¬ Reserved e.address) ∧
  ∀ n, s.log.countP (Event.isSentBy n) ≤ 3
  := requests_stay_public metadataLibrary (by decide +kernel) metadataActions

/-! ### Bodies -/

/-- What a read of a body gives. -/
inductive Chunk where
  | bytes (chunk : Bytes)
  | ended
  | failed (message : String)

/-- A body that is being read, or was. -/
inductive Reading where
  | reading (body : Bytes)
  | done (result : Except NoombatError Bytes)

namespace Reading

/-- What is kept in memory. -/
def buffered : Reading → Nat
  | reading body => body.length
  | done (.ok body) => body.length
  | done (.error _) => 0

def read (limit : Nat) (what : String) : Reading → Chunk → Reading
  | done result, _ => done result
  | reading _, .failed e => done (.error (.federation s!"reading {what} failed: {e}"))
  | reading body, .ended => done (.ok body)
  | reading body, .bytes chunk =>
      if body.length + chunk.length > limit then
        done (.error
          (.federation s!"{what} exceeds the {limit} byte limit; refusing to buffer it"))
      else reading (body ++ chunk)

end Reading

/-- A body after `n` reads, from a stream that need not end. -/
def bytesWithinLimit (limit : Nat) (what : String) (stream : Nat → Chunk) : Nat → Reading
  | 0 => .reading []
  | n + 1 => (bytesWithinLimit limit what stream n).read limit what (stream n)

section Bodies

variable {limit : Nat} {what : String} {stream : Nat → Chunk}

/-- What is being read is what came so far, and within the limit. -/
theorem reading_iff {n : Nat} {body : Bytes} :
  bytesWithinLimit limit what stream n = .reading body ↔
    ∃ parts : List Bytes, parts.map Chunk.bytes = (List.range n).map stream ∧ body = parts.flatten ∧
      body.length ≤ limit
  := by
  induction n generalizing body with
  | zero =>
      constructor
      · intro h
        cases h
        exact ⟨[], rfl, rfl, Nat.zero_le _⟩
      · rintro ⟨parts, hparts, rfl, _⟩
        obtain rfl := List.map_eq_nil_iff.mp hparts
        rfl
  | succ n ih =>
      rw [bytesWithinLimit, List.range_succ, List.map_append]
      constructor
      · intro h
        cases hbefore : bytesWithinLimit limit what stream n with
        | done result =>
            rw [hbefore] at h
            cases h
        | reading before =>
            rw [hbefore] at h
            obtain ⟨parts, hparts, hbody, hlength⟩ := ih.mp hbefore
            cases hchunk : stream n with
            | ended =>
                rw [hchunk] at h
                cases h
            | failed message =>
                rw [hchunk] at h
                cases h
            | bytes chunk =>
                rw [hchunk, Reading.read] at h
                split at h
                · cases h
                · rename_i hle
                  cases h
                  refine ⟨parts ++ [chunk], ?_, ?_, ?_⟩
                  · rw [List.map_append, hparts, List.map_singleton, List.map_singleton, hchunk]
                  · rw [List.flatten_append, hbody, List.flatten_singleton]
                  · rw [List.length_append]
                    exact Nat.le_of_not_lt hle
      · rintro ⟨parts, hparts, rfl, hlength⟩
        obtain ⟨front, last, rfl, hfront, hlast⟩ := List.map_eq_append_iff.mp hparts
        obtain ⟨chunk, rfl, hchunk⟩ := List.map_eq_singleton_iff.mp hlast
        rw [List.flatten_append, List.flatten_singleton] at hlength ⊢
        rw [List.length_append] at hlength
        rw [(@ih front.flatten).mpr
          ⟨front, hfront, rfl, Nat.le_trans (Nat.le_add_right _ _) hlength⟩, ← hchunk,
          Reading.read, if_neg (Nat.not_lt.mpr hlength)]

/-- A body is read to its end just if it has one, without a failure before it, and is within the
limit. -/
theorem done_ok_iff {body : Bytes} :
  (∃ n, bytesWithinLimit limit what stream n = .done (.ok body)) ↔
    ∃ n, ∃ parts : List Bytes, parts.map Chunk.bytes = (List.range n).map stream ∧ stream n = .ended ∧
      body = parts.flatten ∧ body.length ≤ limit
  := by
  constructor
  · rintro ⟨n, h⟩
    induction n with
    | zero => cases h
    | succ n ih =>
        rw [bytesWithinLimit] at h
        cases hbefore : bytesWithinLimit limit what stream n with
        | done result =>
            rw [hbefore] at h
            cases h
            exact ih hbefore
        | reading before =>
            rw [hbefore] at h
            cases hchunk : stream n with
            | ended =>
                rw [hchunk] at h
                cases h
                obtain ⟨parts, hparts, hbody, hlength⟩ := reading_iff.mp hbefore
                exact ⟨n, parts, hparts, hchunk, hbody, hlength⟩
            | failed message =>
                rw [hchunk] at h
                cases h
            | bytes chunk =>
                rw [hchunk, Reading.read] at h
                split at h
                · cases h
                · cases h
  · rintro ⟨n, parts, hparts, hended, hbody, hlength⟩
    use n + 1
    rw [bytesWithinLimit, reading_iff.mpr ⟨parts, hparts, hbody, hlength⟩, hended]
    rfl

theorem buffered_le (n : Nat) :
  (bytesWithinLimit limit what stream n).buffered ≤ limit
  := by
  cases h : bytesWithinLimit limit what stream n with
  | reading body =>
      obtain ⟨_, _, _, hlength⟩ := reading_iff.mp h
      exact hlength
  | done result =>
      cases result with
      | error e => exact Nat.zero_le _
      | ok body =>
          obtain ⟨_, _, _, _, _, hlength⟩ := done_ok_iff.mp ⟨n, h⟩
          exact hlength

theorem length_le_flatten {parts : List Bytes} (h : ∀ part ∈ parts, part ≠ []) :
  parts.length ≤ parts.flatten.length
  := by
  induction parts with
  | nil => exact Nat.le_refl 0
  | cons part parts ih =>
      have hpart := List.length_pos_of_ne_nil (h part List.mem_cons_self)
      have hparts := ih fun p hp => h p (List.mem_cons_of_mem _ hp)
      rw [List.length_cons, List.flatten_cons, List.length_append]
      omega

end Bodies

/-- Of a body no more is kept than the limit, at any time.  It is read just if it ends within the
limit.  And one that goes on without end is given up. -/
theorem bodies_bounded (limit : Nat) (what : String) (stream : Nat → Chunk) :
  (∀ n, (bytesWithinLimit limit what stream n).buffered ≤ limit) ∧
  (∀ body, (∃ n, bytesWithinLimit limit what stream n = .done (.ok body)) ↔
    ∃ n, ∃ parts : List Bytes, parts.map Chunk.bytes = (List.range n).map stream ∧ stream n = .ended ∧
      body = parts.flatten ∧ body.length ≤ limit) ∧
  ((∀ n, stream n ≠ .bytes []) →
    ∃ result, bytesWithinLimit limit what stream (limit + 1) = .done result)
  := by
  refine ⟨buffered_le, fun _ => done_ok_iff, ?_⟩
  intro hnonempty
  cases h : bytesWithinLimit limit what stream (limit + 1) with
  | done result => exact ⟨result, rfl⟩
  | reading body =>
      -- each chunk has a byte at least
      obtain ⟨parts, hparts, rfl, hlength⟩ := reading_iff.mp h
      have hlong : parts.length = limit + 1 := by
        have hlengths := congrArg List.length hparts
        rwa [List.length_map, List.length_map, List.length_range] at hlengths
      have hle : parts.length ≤ parts.flatten.length := by
        apply length_le_flatten
        rintro part hpart rfl
        have hmem : Chunk.bytes [] ∈ (List.range (limit + 1)).map stream := by
          rw [← hparts]
          exact List.mem_map_of_mem hpart
        obtain ⟨i, _, hi⟩ := List.mem_map.mp hmem
        exact hnonempty i hi
      omega

end Federation.Client
