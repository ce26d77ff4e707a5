import Noombat.Federation.Types
import Noombat.Table

/-!
# The hashtags of posts

The names of a post's hashtags are put in lower case and stored by one statement, which gives back
the identifiers of their rows; another statement links the post to these.  The first refuses to meet
one row twice, so that it fails just if two names are the same in lower case, or one cannot be
stored; then the post is linked to nothing.
-/

namespace Identity.Hashtags

open Federation (Uuid NoombatError)

/-! ### The tables -/

structure Hashtag where
  id : Uuid
  name : String
  deriving DecidableEq

/-- The columns `id` and `name` are unique. -/
def HashtagsApart (r r' : Hashtag) : Prop :=
  r.id ≠ r'.id ∧ r.name ≠ r'.name

/-- The table of hashtags, and the next identifier that is drawn. -/
structure HashtagTable where
  rows : Table HashtagsApart
  nextId : Uuid
  below : ∀ r ∈ rows, r.id < nextId

/-- The posts, the hashtags, and the links between them, each of which is there once. -/
structure Db where
  posts : List Uuid
  hashtags : HashtagTable
  postHashtags : Table fun l l' : Uuid × Uuid => l ≠ l'

/-- A stored post. -/
abbrev Db.Post (db : Db) : Type :=
  { id : Uuid // id ∈ db.posts }

/-! ### The statements -/

/-- The table with another row, whose name is new. -/
def HashtagTable.insertNew (name : String) (t : HashtagTable)
    (h : t.rows.find (·.name == name) = none) : HashtagTable where
  rows :=
    { rows := ⟨t.nextId, name⟩ :: t.rows.rows
      apart := by
        apply List.Pairwise.cons _ t.rows.apart
        intro r hr
        constructor
        · exact Ne.symm (Nat.ne_of_lt (t.below r hr))
        · intro hname
          have hnone := List.find?_eq_none.mp h r hr
          simp [← hname] at hnone }
  nextId := t.nextId + 1
  below := by
    intro r hr
    obtain rfl | hr := List.mem_cons.mp hr
    · exact Nat.lt_succ_self _
    · exact Nat.lt_succ_of_lt (t.below r hr)

/-- The identifier of a name, which is stored if it is not there. -/
def HashtagTable.upsert (name : String) (t : HashtagTable) : Uuid × HashtagTable :=
  match h : t.rows.find (·.name == name) with
  | some r => (r.id, t)
  | none => (t.nextId, t.insertNew name h)

section Statements

variable (storable : String → Bool)

/-- The identifiers of the names that are left, each of which is stored or set to itself; a row
that this statement has touched is not touched again. -/
def upsertAll (touched : List Uuid) :
    List String → HashtagTable → Except NoombatError (List Uuid × HashtagTable)
  | [], t => .ok ([], t)
  | name :: names, t =>
      if !storable name then .error (.database "the name cannot be stored")
      else
        let (id, t) := t.upsert name
        if touched.contains id then
          .error (.database "ON CONFLICT DO UPDATE command cannot affect row a second time")
        else do
          let (ids, t) ← upsertAll (id :: touched) names t
          return (id :: ids, t)

/-- The links with those of a post to some hashtags. -/
def linkAll (postId : Uuid) (ids : List Uuid)
    (links : Table fun l l' : Uuid × Uuid => l ≠ l') : Table fun l l' : Uuid × Uuid => l ≠ l' :=
  ids.foldl (fun links id => (links.insert (postId, id)).getD links) links

/-- Link a post to a set of hashtag names. -/
def linkPostHashtags (toLowercase : String → String) (postId : Uuid) (hashtagNames : List String)
    (db : Db) : Except NoombatError Unit × Db :=
  if hashtagNames.isEmpty then (.ok (), db)
  else
    match upsertAll storable [] (hashtagNames.map toLowercase) db.hashtags with
    | .error e => (.error e, db)
    | .ok (ids, hashtags) =>
        if db.posts.contains postId then
          (.ok (), { db with hashtags, postHashtags := linkAll postId ids db.postHashtags })
        else
          (.error (.database "insert or update violates foreign key constraint"),
            { db with hashtags })

/-- The names of the `Hashtag` entries of an object's `tag` array. -/
def extractHashtagsFromTags (toLowercase : String → String) (object : Json) : List String :=
  (((object.get "tag").bind Json.asArray).getD []).filterMap fun tag =>
    (tag.getStr "type").bind fun tagType =>
      if tagType ≠ "Hashtag" then none
      else
        (tag.getStr "name").bind fun name =>
          let stripped := (Text.stripPrefix "#" name).getD name
          if stripped = "" then none else some (toLowercase stripped)

/-- The hashtags of a remote post that was stored are linked; a failure is only logged. -/
def linkRemoteTags (toLowercase : String → String) (postId : Uuid) (object : Json) (db : Db) : Db :=
  let hashtagNames := extractHashtagsFromTags toLowercase object
  if hashtagNames.isEmpty then db
  else (linkPostHashtags storable toLowercase postId hashtagNames db).2

end Statements

/-! ### What a statement does to the table -/

instance : Std.Symm HashtagsApart :=
  ⟨fun _ _ h => ⟨h.1.symm, h.2.symm⟩⟩

section Upsert

variable {t t' : HashtagTable} {name : String} {id : Uuid}

theorem HashtagTable.eq_of_name {r r' : Hashtag} (hr : r ∈ t.rows) (hr' : r' ∈ t.rows)
    (h : r.name = r'.name) :
  r = r'
  := Table.eq_of_not_apart hr hr' fun hapart => hapart.2 h

theorem HashtagTable.eq_of_id {r r' : Hashtag} (hr : r ∈ t.rows) (hr' : r' ∈ t.rows)
    (h : r.id = r'.id) :
  r = r'
  := Table.eq_of_not_apart hr hr' fun hapart => hapart.1 h

/-- The row of the name is found, or it is new. -/
theorem upsert_cases (h : t.upsert name = (id, t')) :
  (⟨id, name⟩ ∈ t.rows ∧ t' = t) ∨
    (∀ r ∈ t.rows, r.name ≠ name) ∧ id = t.nextId ∧
      ∀ r, r ∈ t'.rows ↔ r = ⟨id, name⟩ ∨ r ∈ t.rows
  := by
  rw [HashtagTable.upsert] at h
  split at h
  · rename_i r hr
    left
    obtain ⟨rfl, rfl⟩ := Prod.mk.inj h
    have hfound := Table.satisfies_of_find hr
    have hname : r.name = name := by simpa using hfound
    rw [← hname]
    exact ⟨Table.mem_of_find hr, rfl⟩
  · rename_i hnone
    right
    obtain ⟨rfl, rfl⟩ := Prod.mk.inj h
    refine ⟨?_, rfl, ?_⟩
    · intro r hr hname
      have hfind := List.find?_eq_none.mp hnone r hr
      simp [hname] at hfind
    · intro r
      exact List.mem_cons

/-- The rows that a statement has touched are those of the names before. -/
structure Touched (before : List String) (touched : List Uuid) (t : HashtagTable) : Prop where
  present : ∀ n ∈ before, ∃ r ∈ t.rows, r.name = n
  ids : ∀ id, id ∈ touched ↔ ∃ r ∈ t.rows, r.id = id ∧ r.name ∈ before

theorem touched_nil (t : HashtagTable) :
  Touched [] [] t
  := by
  constructor
  · nofun
  · simp

/-- A row is touched again just if its name came before. -/
theorem Touched.upsert {before : List String} {touched : List Uuid} (h : Touched before touched t)
    (hupsert : t.upsert name = (id, t')) :
  (id ∈ touched ↔ name ∈ before) ∧ Touched (name :: before) (id :: touched) t'
  := by
  obtain ⟨hrow, rfl⟩ | ⟨hnew, rfl, hmem⟩ := upsert_cases hupsert
  · have hsame : id ∈ touched ↔ name ∈ before := by
      rw [h.ids]
      constructor
      · rintro ⟨r, hr, hid, hname⟩
        obtain rfl := HashtagTable.eq_of_id hr hrow hid
        exact hname
      · intro hname
        exact ⟨_, hrow, rfl, hname⟩
    refine ⟨hsame, ?_, ?_⟩
    · intro n hn
      obtain rfl | hn := List.mem_cons.mp hn
      · exact ⟨_, hrow, rfl⟩
      · exact h.present n hn
    · intro id'
      rw [List.mem_cons, h.ids]
      constructor
      · rintro (rfl | ⟨r, hr, hid, hname⟩)
        · exact ⟨_, hrow, rfl, List.mem_cons_self⟩
        · exact ⟨r, hr, hid, List.mem_cons_of_mem name hname⟩
      · rintro ⟨r, hr, rfl, hname⟩
        obtain hname | hname := List.mem_cons.mp hname
        · rw [HashtagTable.eq_of_name hr hrow hname]
          exact .inl rfl
        · exact .inr ⟨r, hr, rfl, hname⟩
  · have hid : t.nextId ∉ touched := by
      rw [h.ids]
      rintro ⟨r, hr, hid, -⟩
      exact absurd hid (Nat.ne_of_lt (t.below r hr))
    have hname : name ∉ before := by
      intro hbefore
      obtain ⟨r, hr, hname⟩ := h.present name hbefore
      exact hnew r hr hname
    refine ⟨iff_of_false hid hname, ?_, ?_⟩
    · intro n hn
      obtain rfl | hn := List.mem_cons.mp hn
      · exact ⟨_, (hmem _).mpr (.inl rfl), rfl⟩
      · obtain ⟨r, hr, hrn⟩ := h.present n hn
        exact ⟨r, (hmem r).mpr (.inr hr), hrn⟩
    · intro id'
      rw [List.mem_cons, h.ids]
      constructor
      · rintro (rfl | ⟨r, hr, hrid, hrn⟩)
        · exact ⟨_, (hmem _).mpr (.inl rfl), rfl, List.mem_cons_self⟩
        · exact ⟨r, (hmem r).mpr (.inr hr), hrid, List.mem_cons_of_mem name hrn⟩
      · rintro ⟨r, hr, rfl, hrn⟩
        obtain rfl | hr := (hmem r).mp hr
        · exact .inl rfl
        · obtain hrn | hrn := List.mem_cons.mp hrn
          · exact absurd hrn (hnew r hr)
          · exact .inr ⟨r, hr, rfl, hrn⟩

end Upsert

/-- What the statement for some names leaves: their rows besides those that were there, and the
identifiers of these. -/
structure Stored (names : List String) (t : HashtagTable) (ids : List Uuid) (t' : HashtagTable) :
    Prop where
  kept : ∀ r ∈ t.rows, r ∈ t'.rows
  new : ∀ r ∈ t'.rows, r ∈ t.rows ∨ r.name ∈ names
  present : ∀ n ∈ names, ∃ r ∈ t'.rows, r.name = n
  ids : ∀ id, id ∈ ids ↔ ∃ r ∈ t'.rows, r.id = id ∧ r.name ∈ names
  same : (∀ n ∈ names, ∃ r ∈ t.rows, r.name = n) → t' = t

theorem Stored.cons {name : String} {names : List String} {t t' t'' : HashtagTable} {id : Uuid}
    {ids : List Uuid} (hupsert : t.upsert name = (id, t')) (h : Stored names t' ids t'') :
  Stored (name :: names) t (id :: ids) t''
  := by
  have hrow : ⟨id, name⟩ ∈ t'.rows := by
    obtain ⟨hrow, rfl⟩ | ⟨-, -, hmem⟩ := upsert_cases hupsert
    · exact hrow
    · exact (hmem _).mpr (.inl rfl)
  have hkept : ∀ r ∈ t.rows, r ∈ t'.rows := by
    intro r hr
    obtain ⟨-, rfl⟩ | ⟨-, -, hmem⟩ := upsert_cases hupsert
    · exact hr
    · exact (hmem r).mpr (.inr hr)
  constructor
  · intro r hr
    exact h.kept r (hkept r hr)
  · intro r hr
    obtain hr | hr := h.new r hr
    · obtain ⟨-, rfl⟩ | ⟨-, -, hmem⟩ := upsert_cases hupsert
      · exact .inl hr
      · obtain rfl | hr := (hmem r).mp hr
        · exact .inr List.mem_cons_self
        · exact .inl hr
    · exact .inr (List.mem_cons_of_mem name hr)
  · intro n hn
    obtain rfl | hn := List.mem_cons.mp hn
    · exact ⟨_, h.kept _ hrow, rfl⟩
    · exact h.present n hn
  · intro id'
    rw [List.mem_cons, h.ids]
    constructor
    · rintro (rfl | ⟨r, hr, hid, hname⟩)
      · exact ⟨_, h.kept _ hrow, rfl, List.mem_cons_self⟩
      · exact ⟨r, hr, hid, List.mem_cons_of_mem name hname⟩
    · rintro ⟨r, hr, rfl, hname⟩
      obtain hname | hname := List.mem_cons.mp hname
      · rw [HashtagTable.eq_of_name hr (h.kept _ hrow) hname]
        exact .inl rfl
      · exact .inr ⟨r, hr, rfl, hname⟩
  · intro hpresent
    obtain ⟨-, rfl⟩ | ⟨hnew, -, -⟩ := upsert_cases hupsert
    · apply h.same
      intro n hn
      exact hpresent n (List.mem_cons_of_mem name hn)
    · obtain ⟨r, hr, hname⟩ := hpresent name List.mem_cons_self
      exact absurd hname (hnew r hr)

/-! ### When a statement goes through -/

section Batches

variable {storable : String → Bool}

/-- Names that a statement can take: they differ, and each can be stored. -/
def Acceptable (storable : String → Bool) (names : List String) : Prop :=
  names.Nodup ∧ ∀ n ∈ names, storable n = true

theorem upsertAll_cases {before : List String} {touched : List Uuid} {names : List String}
    {t : HashtagTable} (h : Touched before touched t) :
  (Acceptable storable names ∧ (∀ n ∈ names, n ∉ before) ∧
      ∃ ids t', upsertAll storable touched names t = .ok (ids, t') ∧ Stored names t ids t') ∨
    ¬ (Acceptable storable names ∧ ∀ n ∈ names, n ∉ before) ∧
      ∃ e, upsertAll storable touched names t = .error e
  := by
  induction names generalizing before touched t with
  | nil =>
      left
      refine ⟨⟨List.nodup_nil, nofun⟩, nofun, [], t, rfl, ?_⟩
      exact ⟨fun r hr => hr, fun r hr => .inl hr, nofun, by simp, fun _ => rfl⟩
  | cons name names ih =>
      rw [upsertAll]
      cases hstorable : storable name with
      | false =>
          right
          constructor
          · rintro ⟨haccept, -⟩
            rw [haccept.2 name List.mem_cons_self] at hstorable
            cases hstorable
          · exact ⟨_, rfl⟩
      | true =>
          cases hupsert : t.upsert name with
          | mk id t' =>
              obtain ⟨hagain, htouched⟩ := h.upsert hupsert
              by_cases hbefore : name ∈ before
              · right
                constructor
                · rintro ⟨-, hdiffer⟩
                  exact hdiffer name List.mem_cons_self hbefore
                · simp [hagain.mpr hbefore]
              · have hnot : touched.contains id = false := by
                  simpa using fun hid => hbefore (hagain.mp hid)
                simp only [hnot, Bool.not_true, Bool.false_eq_true, if_false]
                obtain ⟨haccept, hdiffer, ids, t'', hall, hstored⟩ | ⟨hrefused, e, hall⟩ :=
                  ih htouched
                · left
                  have hnew : name ∉ names := fun hmem => hdiffer name hmem List.mem_cons_self
                  refine ⟨⟨List.nodup_cons.mpr ⟨hnew, haccept.1⟩, ?_⟩, ?_, id :: ids, t'', ?_,
                    hstored.cons hupsert⟩
                  · exact List.forall_mem_cons.mpr ⟨hstorable, haccept.2⟩
                  · rw [List.forall_mem_cons]
                    refine ⟨hbefore, ?_⟩
                    intro n hn hmem
                    exact hdiffer n hn (List.mem_cons_of_mem name hmem)
                  · rw [hall]
                    rfl
                · right
                  constructor
                  · rintro ⟨⟨hnodup, hall⟩, hdiffer⟩
                    apply hrefused
                    obtain ⟨hnew, hnodup⟩ := List.nodup_cons.mp hnodup
                    refine ⟨⟨hnodup, (List.forall_mem_cons.mp hall).2⟩, ?_⟩
                    intro n hn hmem
                    obtain rfl | hmem := List.mem_cons.mp hmem
                    · exact hnew hn
                    · exact hdiffer n (List.mem_cons_of_mem name hn) hmem
                  · use e
                    rw [hall]
                    rfl

theorem mem_linkAll {postId : Uuid} {ids : List Uuid}
    {links : Table fun l l' : Uuid × Uuid => l ≠ l'} {l : Uuid × Uuid} :
  l ∈ linkAll postId ids links ↔ l ∈ links ∨ l.1 = postId ∧ l.2 ∈ ids
  := by
  induction ids generalizing links with
  | nil => simp [linkAll]
  | cons id ids ih =>
      have hinsert : l ∈ (links.insert (postId, id)).getD links ↔ l = (postId, id) ∨ l ∈ links := by
        cases hi : links.insert (postId, id) with
        | some links' => exact Table.mem_of_insert hi
        | none =>
            -- the link is there
            have hmem : (postId, id) ∈ links := by
              by_contra hmem
              obtain ⟨links', hlinks'⟩ := @Table.exists_insert _ _ _ (postId, id) links
                fun l' hl' heq => hmem (heq ▸ hl')
              rw [hi] at hlinks'
              cases hlinks'
            constructor
            · exact .inr
            · rintro (rfl | hl)
              · exact hmem
              · exact hl
      have hfold : linkAll postId (id :: ids) links =
          linkAll postId ids ((links.insert (postId, id)).getD links) := rfl
      rw [hfold, ih, hinsert, List.mem_cons, Prod.ext_iff]
      tauto

/-- Links that are there are not made again. -/
theorem linkAll_of_present {postId : Uuid} {ids : List Uuid}
    {links : Table fun l l' : Uuid × Uuid => l ≠ l'} (h : ∀ id ∈ ids, (postId, id) ∈ links) :
  linkAll postId ids links = links
  := by
  induction ids with
  | nil => rfl
  | cons id ids ih =>
      have hnone : links.insert (postId, id) = none := by
        apply dif_neg
        intro hall
        exact hall _ (h id List.mem_cons_self) rfl
      have hfold : linkAll postId (id :: ids) links =
          linkAll postId ids ((links.insert (postId, id)).getD links) := rfl
      rw [hfold, hnone, Option.getD_none]
      exact ih fun id' hid' => h id' (List.mem_cons_of_mem id hid')

end Batches

/-! ### Posts -/

section Posts

variable (storable : String → Bool) (toLowercase : String → String) {db : Db}

/-- The names of a post's hashtags, in lower case. -/
def lowered (hashtagNames : List String) : List String :=
  hashtagNames.map toLowercase

/-- A post is linked to the hashtags of some names besides those it had; each name has one row,
nothing else changes, and linking again changes nothing. -/
structure LinksExactly (post : db.Post) (hashtagNames : List String) (db' : Db) : Prop where
  ok : (linkPostHashtags storable toLowercase post.1 hashtagNames db).1 = .ok ()
  result : (linkPostHashtags storable toLowercase post.1 hashtagNames db).2 = db'
  links : ∀ l, l ∈ db'.postHashtags ↔ l ∈ db.postHashtags ∨ l.1 = post.1 ∧
    ∃ r ∈ db'.hashtags.rows, r.id = l.2 ∧ r.name ∈ lowered toLowercase hashtagNames
  one : ∀ n ∈ lowered toLowercase hashtagNames, ∃! r, r ∈ db'.hashtags.rows ∧ r.name = n
  others : ∀ r, r ∈ db.hashtags.rows → r ∈ db'.hashtags.rows
  new : ∀ r ∈ db'.hashtags.rows,
    r ∈ db.hashtags.rows ∨ r.name ∈ lowered toLowercase hashtagNames
  posts : db'.posts = db.posts
  again : linkPostHashtags storable toLowercase post.1 hashtagNames db' = (.ok (), db')

/-- A post has got the hashtags of some names. -/
def HasTags (postId : Uuid) (hashtagNames : List String) (db : Db) : Prop :=
  ∀ n ∈ lowered toLowercase hashtagNames, ∃ r ∈ db.hashtags.rows,
    r.name = n ∧ (postId, r.id) ∈ db.postHashtags

variable {storable toLowercase}

/-- Names that a statement can take are linked. -/
theorem linksExactly_of_acceptable (post : db.Post) {hashtagNames : List String}
    (h : Acceptable storable (lowered toLowercase hashtagNames)) :
  ∃ db', LinksExactly storable toLowercase post hashtagNames db'
  := by
  cases hnames : hashtagNames with
  | nil =>
      use db
      constructor
      · rfl
      · rfl
      · simp [lowered]
      · simp [lowered]
      · exact fun r hr => hr
      · exact fun r hr => .inl hr
      · rfl
      · rfl
  | cons name names =>
      rw [← hnames]
      have hnonempty : hashtagNames.isEmpty = false := by rw [hnames]; rfl
      have hpost : db.posts.contains post.1 = true := by simpa using post.2
      obtain ⟨-, -, ids, t', hall, hstored⟩ | ⟨hrefused, -⟩ :=
        @upsertAll_cases storable [] [] (lowered toLowercase hashtagNames) db.hashtags
          (touched_nil db.hashtags)
      · use { db with hashtags := t', postHashtags := linkAll post.1 ids db.postHashtags }
        have hlink : linkPostHashtags storable toLowercase post.1 hashtagNames db =
            (.ok (), { db with
              hashtags := t', postHashtags := linkAll post.1 ids db.postHashtags }) := by
          rw [linkPostHashtags, hnonempty]
          change (match upsertAll storable [] (lowered toLowercase hashtagNames) db.hashtags with
            | .error e => _
            | .ok (ids, hashtags) => _) = _
          rw [hall]
          simp only [hpost]
          rfl
        constructor
        · rw [hlink]
        · rw [hlink]
        · intro l
          rw [mem_linkAll, hstored.ids]
        · intro n hn
          obtain ⟨r, hr, hrn⟩ := hstored.present n hn
          use r
          constructor
          · exact ⟨hr, hrn⟩
          · rintro r' ⟨hr', hrn'⟩
            exact HashtagTable.eq_of_name hr' hr (hrn'.trans hrn.symm)
        · exact hstored.kept
        · exact hstored.new
        · rfl
        · obtain ⟨-, -, ids', t'', hall', hstored'⟩ | ⟨hrefused, -⟩ :=
            @upsertAll_cases storable [] [] (lowered toLowercase hashtagNames) t' (touched_nil t')
          · obtain rfl := hstored'.same hstored.present
            have hpresent : ∀ id ∈ ids', (post.1, id) ∈ linkAll post.1 ids db.postHashtags := by
              intro id hid
              rw [mem_linkAll, hstored.ids, ← hstored'.ids]
              exact .inr ⟨rfl, hid⟩
            rw [linkPostHashtags, hnonempty]
            change (match upsertAll storable [] (lowered toLowercase hashtagNames) t'' with
              | .error e => _
              | .ok (ids, hashtags) => _) = _
            rw [hall']
            simp only [hpost, linkAll_of_present hpresent]
            rfl
          · exact absurd ⟨h, fun _ _ => List.not_mem_nil⟩ hrefused
      · exact absurd ⟨h, fun _ _ => List.not_mem_nil⟩ hrefused

/-- Names that a statement cannot take are not linked, and nothing changes. -/
theorem linkPostHashtags_refused {hashtagNames : List String} (postId : Uuid)
    (h : ¬ Acceptable storable (lowered toLowercase hashtagNames)) :
  ∃ e, linkPostHashtags storable toLowercase postId hashtagNames db = (.error e, db)
  := by
  have hnonempty : hashtagNames.isEmpty = false := by
    cases hashtagNames with
    | nil => exact absurd ⟨List.nodup_nil, nofun⟩ h
    | cons name names => rfl
  obtain ⟨haccept, -⟩ | ⟨-, e, hall⟩ :=
    @upsertAll_cases storable [] [] (lowered toLowercase hashtagNames) db.hashtags
      (touched_nil db.hashtags)
  · exact absurd haccept h
  · use e
    rw [linkPostHashtags, hnonempty]
    change (match upsertAll storable [] (lowered toLowercase hashtagNames) db.hashtags with
      | .error e => _
      | .ok (ids, hashtags) => _) = _
    rw [hall]

/-- A post is linked to its hashtags just if their names differ in lower case and can be stored; and
so a remote post that has none yet gets those of its tags. -/
theorem hashtags_linked_iff (storable : String → Bool) (toLowercase : String → String) (db : Db)
    (post : db.Post) :
  (∀ hashtagNames, (∃ db', LinksExactly storable toLowercase post hashtagNames db') ↔
      Acceptable storable (lowered toLowercase hashtagNames)) ∧
    ∀ object, (∀ l ∈ db.postHashtags, l.1 ≠ post.1) →
      (HasTags toLowercase post.1 (extractHashtagsFromTags toLowercase object)
          (linkRemoteTags storable toLowercase post.1 object db) ↔
        Acceptable storable (lowered toLowercase (extractHashtagsFromTags toLowercase object)))
  := by
  constructor
  · intro hashtagNames
    constructor
    · rintro ⟨db', hlinks⟩
      by_contra h
      obtain ⟨e, he⟩ := @linkPostHashtags_refused storable toLowercase db hashtagNames post.1 h
      have hok := hlinks.ok
      rw [he] at hok
      cases hok
    · exact linksExactly_of_acceptable post
  · intro object hnone
    rw [linkRemoteTags]
    generalize extractHashtagsFromTags toLowercase object = hashtagNames
    cases hashtagNames with
    | nil => exact iff_of_true nofun ⟨List.nodup_nil, nofun⟩
    | cons name names =>
        simp only [List.isEmpty_cons, Bool.false_eq_true, if_false]
        constructor
        · intro htags
          by_contra h
          obtain ⟨e, he⟩ := @linkPostHashtags_refused storable toLowercase db _ post.1 h
          rw [he] at htags
          obtain ⟨r, -, -, hlink⟩ := htags _ List.mem_cons_self
          exact hnone _ hlink rfl
        · intro h n hn
          obtain ⟨db', hlinks⟩ := linksExactly_of_acceptable post h
          obtain ⟨r, ⟨hr, hrn⟩, -⟩ := hlinks.one n hn
          rw [hlinks.result]
          exact ⟨r, hr, hrn, (hlinks.links _).mpr (.inr ⟨rfl, r, hr, rfl, hrn ▸ hn⟩)⟩

end Posts

/-! ### One name in two spellings -/

/-- A database with one post. -/
def onePost : Db where
  posts := [1]
  hashtags := ⟨Table.empty, 0, nofun⟩
  postHashtags := Table.empty

/-- A post with a hashtag in two spellings is linked to none. -/
theorem spellings_not_linked :
  ¬ ∃ db', @LinksExactly (fun _ => true) Text.toAsciiLowercase onePost
    ⟨1, List.mem_singleton_self 1⟩ ["Rust", "rust"] db'
  := by
  rintro ⟨db', h⟩
  have hfailed : (linkPostHashtags (fun _ => true) Text.toAsciiLowercase 1 ["Rust", "rust"]
      onePost).1.toOption = none := by decide +kernel
  rw [h.ok] at hfailed
  cases hfailed

end Identity.Hashtags
