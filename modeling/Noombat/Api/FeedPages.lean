import Mathlib.Data.List.Dedup
import Noombat.Api.Feed

/-!
# The pages of the feed

Every walk through the pages of a feed ends.  If all posts come from one statement, it shows each
post that may be shown once, the newest first, unless a page from which something is withheld
comes before such a post.
-/

namespace Feed

open Federation (Uuid DateTime NoombatError)
open Pages (page Unbroken page_append page_eq_nil lt_of_page_ne_nil filterMap_drop_eq_nil)

/-! ### What may be shown -/

namespace Db

variable (db : Db)

/-- The actor whose feed is asked for. -/
def viewer (user : Option String) : Option Actor :=
  user.bind db.findLocal

/-- The author of a post is not muted by the viewer, and is followed by the viewer if silenced. -/
def mayShow (viewer : Option Actor) (row : PostRow) : Bool :=
  (viewer.all fun actor => !db.isMuted actor.id row.post.actorId) &&
    (row.actorStatus != .silenced ||
      viewer.any fun actor => (db.followedActors actor.id).contains row.post.actorId)

/-- Whether the images of sensitive posts are blurred. -/
def blur (viewer : Option Actor) : Bool :=
  match viewer with
  | none => true
  | some actor =>
      ((db.actors.find (·.id == actor.id)).map (·.blurSensitiveMedia)).getD true

/-- A post as it is shown to a viewer, if it may be. -/
def shown (viewer : Option Actor) (id : Uuid) : Option FeedPost :=
  (db.postRow id).bind fun row =>
    if db.mayShow viewer row then
      some ⟨row.username, row.displayName.getD row.username, row.post.contentHtml,
        row.post.createdAt, row.post.apId, row.post.id, row.post.sensitive && db.blur viewer⟩
    else none

theorem post_of_postRow {id : Uuid} {row : PostRow} (h : db.postRow id = some row) :
  row.post ∈ db.posts ∧ row.post.id = id
  := by
  obtain ⟨post, hpost, h⟩ := Option.bind_eq_some_iff.mp h
  obtain ⟨author, hauthor, h⟩ := Option.bind_eq_some_iff.mp h
  split at h
  · obtain rfl := Option.some.inj h
    have hid := Table.satisfies_of_find hpost
    exact ⟨Table.mem_of_find hpost, eq_of_beq hid⟩
  · cases h

end Db

section Answers

variable (db : Db) (ties : Ties)

theorem viewerOf_statements (user : Option String) :
  viewerOf (db.statements ties) user = db.viewer user
  := by
  cases user with
  | none => rfl
  | some username =>
      change ((db.statements ties).findLocalByUsername username).toOption = db.findLocal username
      dsimp only [Db.statements]
      cases db.findLocal username with
      | none => rfl
      | some actor => rfl

theorem blurPreference_statements (viewer : Option Actor) :
  blurPreference (db.statements ties) viewer = db.blur viewer
  := by
  cases viewer with
  | none => rfl
  | some actor => rfl

/-- Whom the viewer has muted, of the authors of a page. -/
theorem contains_mutedAuthors {viewer : Option Actor} {ids : List Uuid} {post : Post}
    (hpost : post ∈ db.posts) (hid : post.id ∈ ids) :
  (mutedAuthors (db.statements ties) viewer ids).contains post.actorId =
    viewer.any fun actor => db.isMuted actor.id post.actorId
  := by
  cases viewer with
  | none => rfl
  | some actor =>
      have hauthor : post.actorId ∈
          ((db.posts.rows.filter fun p => ids.contains p.id).map (·.actorId)).dedup := by
        apply List.mem_dedup.mpr
        apply List.mem_map_of_mem
        apply List.mem_filter.mpr
        exact ⟨hpost, List.contains_iff_mem.mpr hid⟩
      change (mutedAmong (db.statements ties) actor.id
        ((db.posts.rows.filter fun p => ids.contains p.id).map (·.actorId)).dedup).contains
          post.actorId = db.isMuted actor.id post.actorId
      generalize
        ((db.posts.rows.filter fun p => ids.contains p.id).map (·.actorId)).dedup = authors
        at hauthor
      rw [mutedAmong]
      split
      · rename_i hempty
        rw [List.isEmpty_iff.mp hempty] at hauthor
        cases hauthor
      · change (authors.filter (db.isMuted actor.id)).contains post.actorId = _
        rw [Bool.eq_iff_iff, List.contains_iff_mem, List.mem_filter]
        constructor
        · exact fun h => h.2
        · exact fun h => ⟨hauthor, h⟩

/-- What the route shows of a page is what may be shown. -/
theorem feedPost_statements {viewer : Option Actor} {ids : List Uuid} {id : Uuid}
    (hid : id ∈ ids) :
  feedPost (db.statements ties) (mutedAuthors (db.statements ties) viewer ids)
      (followedActorIds (db.statements ties) viewer) (blurPreference (db.statements ties) viewer)
      id = db.shown viewer id
  := by
  rw [feedPost, Db.shown, blurPreference_statements]
  change (db.postRow id).bind _ = _
  cases hrow : db.postRow id with
  | none => rfl
  | some row =>
      obtain ⟨hpost, rfl⟩ := db.post_of_postRow hrow
      have hfollowed : (followedActorIds (db.statements ties) viewer).contains row.post.actorId =
          viewer.any fun actor => (db.followedActors actor.id).contains row.post.actorId := by
        cases viewer with
        | none => rfl
        | some actor => rfl
      have hmuted : (viewer.all fun actor => !db.isMuted actor.id row.post.actorId) =
          !(viewer.any fun actor => db.isMuted actor.id row.post.actorId) := by
        cases viewer with
        | none => rfl
        | some actor => rfl
      simp only [Option.bind_some]
      rw [contains_mutedAuthors db ties hpost hid, hfollowed, Db.mayShow, hmuted]
      cases (viewer.any fun actor => db.isMuted actor.id row.post.actorId) with
      | true => rfl
      | false =>
          cases (viewer.any fun actor =>
            (db.followedActors actor.id).contains row.post.actorId) with
          | true => simp
          | false =>
              by_cases hsilenced : row.actorStatus = .silenced
              · simp [hsilenced]
              · simp [hsilenced]

theorem posts_feedPartial (size : Nat) (query : FeedQuery) :
  (feedPartial (db.statements ties) size query).posts =
    (postIds (db.statements ties) size query).filterMap (db.shown (db.viewer query.user))
  := by
  rw [feedPartial]
  dsimp only
  rw [viewerOf_statements]
  apply List.filterMap_congr
  intro id hid
  apply feedPost_statements db ties hid

theorem hasNext_feedPartial (sql : Statements) (size : Nat) (query : FeedQuery) :
  (feedPartial sql size query).hasNext = true ↔ size ≤ (feedPartial sql size query).posts.length
  := decide_eq_true_iff

end Answers

/-! ### What a page is cut from -/

section Cut

variable {db : Db} {ties : Ties} {size : Nat}

/-- No two of the posts are of one time. -/
def TimesDiffer (posts : List Post) : Prop :=
  ∀ p ∈ posts, ∀ q ∈ posts, p.createdAt = q.createdAt → p = q

/-- The posts with the newest first, those of one time as they come. -/
def ordered (posts : List Post) : List Post :=
  newestFirst (fun _ => 0) posts

instance (ties : Uuid → Nat) : Std.Total (Before ties) where
  total p q := by
    rcases lt_trichotomy q.createdAt p.createdAt with hlt | heq | hlt
    · exact .inl (.inl hlt)
    · rcases Nat.le_total (ties p.id) (ties q.id) with hle | hle
      · exact .inl (.inr ⟨heq, hle⟩)
      · exact .inr (.inr ⟨heq.symm, hle⟩)
    · exact .inr (.inl hlt)

instance (ties : Uuid → Nat) : IsTrans Post (Before ties) where
  trans p q r := by
    rintro (hpq | ⟨hpq, hties⟩) (hqr | ⟨hqr, hties'⟩)
    · exact .inl (hqr.trans hpq)
    · exact .inl (hqr ▸ hpq)
    · exact .inl (hpq ▸ hqr)
    · exact .inr ⟨hqr.trans hpq, hties.trans hties'⟩

theorem createdAt_le_of_before {ties : Uuid → Nat} {p q : Post} (h : Before ties p q) :
  q.createdAt ≤ p.createdAt
  := by
  rcases h with hlt | ⟨heq, _⟩
  · exact hlt.le
  · exact heq.le

theorem pairwise_newestFirst (ties : Uuid → Nat) (posts : List Post) :
  (newestFirst ties posts).Pairwise fun p q => q.createdAt ≤ p.createdAt
  := by
  apply (List.pairwise_insertionSort (Before ties) posts).imp
  exact createdAt_le_of_before

/-- The order of posts whose times differ is determined. -/
theorem newestFirst_eq {posts : List Post} (h : TimesDiffer posts) (ties : Uuid → Nat) :
  newestFirst ties posts = ordered posts
  := by
  apply List.Perm.eq_of_pairwise _ (pairwise_newestFirst ties posts) (pairwise_newestFirst _ posts)
  · apply (List.perm_insertionSort _ posts).trans (List.perm_insertionSort _ posts).symm
  · intro p q hp hq hpq hqp
    apply h p ((List.mem_insertionSort _).mp hp) q ((List.mem_insertionSort _).mp hq)
    exact le_antisymm hqp hpq

/-- The identifiers of the posts of a selection, the newest first. -/
def line (posts : List Post) : List Uuid :=
  (ordered posts).map Post.id

theorem ordered_statement {selection : Selection} (h : TimesDiffer (db.selected selection))
    (k : Nat) :
  db.ordered ties selection size (k * size) = page size (line (db.selected selection)) k
  := by
  rw [Db.ordered, newestFirst_eq h, line, page, List.map_take, List.map_drop]

theorem ordered_of_empty {selection : Selection} (h : db.selected selection = [])
    (limit offset : Nat) :
  db.ordered ties selection limit offset = []
  := by
  rw [Db.ordered, h]
  simp [newestFirst]

theorem selected_sublist (selection : Selection) :
  (db.selected selection).Sublist db.posts.rows
  := by
  cases selection with
  | hashtags hashtagIds => apply List.filter_sublist
  | followed actorId => apply List.filter_sublist
  | «public» => apply List.filter_sublist

theorem lt_of_ordered_ne_nil {selection : Selection} {limit offset : Nat}
    (h : db.ordered ties selection limit offset ≠ []) :
  offset < db.posts.rows.length
  := by
  by_contra hle
  apply h
  have hlength :
      (newestFirst (ties selection offset) (db.selected selection)).length ≤ offset := by
    rw [newestFirst, List.length_insertionSort]
    exact (selected_sublist selection).length_le.trans (not_lt.mp hle)
  rw [Db.ordered, List.drop_of_length_le hlength, List.take_nil]
  rfl

theorem selected_hashtags_nil :
  db.selected (.hashtags []) = []
  := by
  apply List.filter_eq_nil_iff.mpr
  intro p _ hany
  obtain ⟨h, _, hcontains⟩ := List.any_eq_true.mp hany
  rw [Bool.and_eq_true_iff] at hcontains
  cases hcontains.2

theorem hashtagPosts_statements (actorId : Uuid) (offset : Nat) :
  hashtagPosts (db.statements ties) size actorId offset =
    db.ordered ties (.hashtags (db.followedHashtags actorId)) size offset
  := by
  change (if (db.followedHashtags actorId).isEmpty then []
    else db.ordered ties (.hashtags (db.followedHashtags actorId)) size offset) = _
  split
  · rename_i hempty
    rw [List.isEmpty_iff.mp hempty, ordered_of_empty selected_hashtags_nil]
  · rfl

theorem personalPosts_statements (actorId : Uuid) (offset : Nat) :
  personalPosts (db.statements ties) size actorId offset =
    distinct (db.ordered ties (.hashtags (db.followedHashtags actorId)) size offset ++
      db.ordered ties (.followed actorId) size offset)
  := by
  rw [personalPosts, hashtagPosts_statements]
  rfl

theorem postIds_of_none {query : FeedQuery} (h : db.viewer query.user = none) :
  postIds (db.statements ties) size query =
    db.ordered ties .public size ((query.page - 1) * size)
  := by
  rw [postIds]
  simp only [viewerOf_statements, h]
  rfl

theorem postIds_of_some {query : FeedQuery} {actor : Actor}
    (h : db.viewer query.user = some actor) :
  postIds (db.statements ties) size query =
    if (personalPosts (db.statements ties) size actor.id ((query.page - 1) * size)).isEmpty &&
        decide (query.page ≤ 1) then
      db.ordered ties .public size ((query.page - 1) * size)
    else personalPosts (db.statements ties) size actor.id ((query.page - 1) * size)
  := by
  rw [postIds]
  simp only [viewerOf_statements, h, Option.isNone_some, Bool.false_or]
  split
  · rename_i hidle
    have hempty := List.isEmpty_iff.mp (Bool.and_eq_true_iff.mp hidle).1
    rw [hempty]
    rfl
  · rfl

/-! ### The walk ends -/

theorem mem_distinct {ids : List Uuid} {id : Uuid} :
  id ∈ distinct ids ↔ id ∈ ids
  := by
  induction ids with
  | nil => rfl
  | cons id' ids ih =>
      rw [distinct, List.mem_cons, List.mem_cons, List.mem_filter, ih, bne_iff_ne]
      by_cases heq : id = id'
      · simp [heq]
      · simp [heq]

theorem distinct_of_nodup {ids : List Uuid} (h : ids.Nodup) :
  distinct ids = ids
  := by
  induction ids with
  | nil => rfl
  | cons id ids ih =>
      obtain ⟨hid, hids⟩ := List.nodup_cons.mp h
      rw [distinct, ih hids, List.filter_eq_self.mpr]
      intro id' hid'
      apply bne_iff_ne.mpr
      rintro rfl
      exact hid hid'

/-- A page has posts only if the posts do not end before it. -/
theorem lt_of_postIds_ne_nil {query : FeedQuery}
    (h : postIds (db.statements ties) size query ≠ []) :
  (query.page - 1) * size < db.posts.rows.length
  := by
  cases hviewer : db.viewer query.user with
  | none =>
      rw [postIds_of_none hviewer] at h
      apply lt_of_ordered_ne_nil h
  | some actor =>
      rw [postIds_of_some hviewer] at h
      split at h
      · apply lt_of_ordered_ne_nil h
      · rw [personalPosts_statements] at h
        obtain ⟨id, hid⟩ := List.exists_mem_of_ne_nil _ h
        rcases List.mem_append.mp (mem_distinct.mp hid) with hmem | hmem
        · apply lt_of_ordered_ne_nil (List.ne_nil_of_mem hmem)
        · apply lt_of_ordered_ne_nil (List.ne_nil_of_mem hmem)

theorem lt_of_hasNext (hsize : 0 < size) {query : FeedQuery}
    (h : (feedPartial (db.statements ties) size query).hasNext = true) :
  (query.page - 1) * size < db.posts.rows.length
  := by
  apply @lt_of_postIds_ne_nil db ties size
  intro hnil
  rw [hasNext_feedPartial, posts_feedPartial, hnil] at h
  exact absurd hsize (not_lt.mpr h)

/-- The posts fill fewer pages than a page number can count. -/
def Countable (db : Db) (size : Nat) : Prop :=
  db.posts.rows.length ≤ (2 ^ 32 - 2) * size

theorem next_page (hsize : 0 < size) (hfew : Countable db size) {query : FeedQuery}
    (h : (feedPartial (db.statements ties) size query).hasNext = true) :
  (feedPartial (db.statements ties) size query).next = ⟨query.page + 1, query.user⟩
  := by
  have hlt : (query.page - 1) * size < (2 ^ 32 - 2) * size :=
    (lt_of_hasNext hsize h).trans_le hfew
  have hpage : query.page - 1 < 2 ^ 32 - 2 := Nat.lt_of_mul_lt_mul_right hlt
  rw [feedPartial]
  dsimp only
  rw [Nat.mod_eq_of_lt (by omega)]

/-- A walk from a page ends before the page after the last post. -/
theorem pages_isSome (hsize : 0 < size) (hfew : Countable db size) (user : Option String)
    {n k : Nat} (h : db.posts.rows.length ≤ (k + n) * size) :
  (pages (db.statements ties) size (n + 1) ⟨k + 1, user⟩).isSome = true
  := by
  induction n generalizing k with
  | zero =>
      rw [pages]
      split
      · rename_i hnext
        have hlt := lt_of_hasNext hsize hnext
        exact absurd hlt (not_lt.mpr h)
      · rfl
  | succ n ih =>
      rw [pages]
      split
      · rename_i hnext
        rw [Option.isSome_map, next_page hsize hfew hnext]
        apply ih
        rw [Nat.add_right_comm]
        exact h
      · rfl

/-! ### What the walk shows -/

/-- A walk through the pages of one list shows what may be shown of it. -/
theorem posts_of_pages (hsize : 0 < size) (hfew : Countable db size) {user : Option String}
    {ids : List Uuid}
    (hids : ∀ k, postIds (db.statements ties) size ⟨k + 1, user⟩ = page size ids k)
    (hunbroken : Unbroken size (db.shown (db.viewer user)) ids) {n k : Nat}
    {answers : List FeedPartial}
    (h : pages (db.statements ties) size n ⟨k + 1, user⟩ = some answers) :
  answers.flatMap (·.posts) = (ids.drop (k * size)).filterMap (db.shown (db.viewer user))
  := by
  induction n generalizing k answers with
  | zero => cases h
  | succ n ih =>
      have hposts := posts_feedPartial db ties size ⟨k + 1, user⟩
      rw [hids k] at hposts
      rw [← page_append, List.filterMap_append]
      rw [pages] at h
      split at h
      · rename_i hnext
        obtain ⟨rest, hrest, rfl⟩ := Option.map_eq_some_iff.mp h
        rw [next_page hsize hfew hnext] at hrest
        rw [List.flatMap_cons, hposts, ih hrest]
      · rename_i hlast
        obtain rfl := Option.some.inj h
        rw [hasNext_feedPartial, hposts, not_le] at hlast
        rw [List.flatMap_singleton, hposts, filterMap_drop_eq_nil hunbroken hlast,
          List.append_nil]

end Cut

/-! ### Feeds of one source -/

namespace Db

variable (db : Db)

/-- The selection from which all pages of a feed are cut, if there is one. -/
def source (user : Option String) : Option Selection :=
  match db.viewer user with
  | none => some .public
  | some actor =>
      match db.selected (.hashtags (db.followedHashtags actor.id)),
        db.selected (.followed actor.id) with
      | _ :: _, [] => some (.hashtags (db.followedHashtags actor.id))
      | [], _ :: _ => some (.followed actor.id)
      | _, _ => none

/-- A viewer whose hashtags and followed actors have no posts. -/
def Idle (user : Option String) : Prop :=
  ∃ actor, db.viewer user = some actor ∧
    db.selected (.hashtags (db.followedHashtags actor.id)) = [] ∧
    db.selected (.followed actor.id) = []

end Db

section Sources

variable {db : Db} {ties : Ties} {size : Nat}

theorem selected_nodup (selection : Selection) :
  ((db.selected selection).map Post.id).Nodup
  := by
  have hrows : (db.posts.rows.map Post.id).Nodup := List.pairwise_map.mpr db.posts.apart
  apply hrows.sublist ((selected_sublist selection).map _)

theorem ordered_nodup (selection : Selection) (limit offset : Nat) :
  (db.ordered ties selection limit offset).Nodup
  := by
  have hnodup : ((newestFirst (ties selection offset) (db.selected selection)).map Post.id).Nodup :=
    ((List.perm_insertionSort _ _).map _).nodup_iff.mpr (selected_nodup selection)
  rw [Db.ordered, List.map_take, List.map_drop]
  apply List.Nodup.sublist _ hnodup
  exact (List.take_sublist _ _).trans (List.drop_sublist _ _)

theorem line_ne_nil {posts : List Post} (h : posts ≠ []) :
  line posts ≠ []
  := by
  rw [line, ordered, newestFirst, Ne, List.map_eq_nil_iff, ← List.length_eq_zero_iff,
    List.length_insertionSort, List.length_eq_zero_iff]
  exact h

/-- The pages of a feed whose posts are of one source. -/
theorem postIds_of_personal (hsize : 0 < size) {user : Option String} {actor : Actor}
    (hviewer : db.viewer user = some actor) {selection : Selection}
    (hne : db.selected selection ≠ []) (hdiffer : TimesDiffer (db.selected selection))
    (hpersonal : ∀ offset, personalPosts (db.statements ties) size actor.id offset =
      distinct (db.ordered ties selection size offset)) (k : Nat) :
  postIds (db.statements ties) size ⟨k + 1, user⟩ = page size (line (db.selected selection)) k
  := by
  have hpage : personalPosts (db.statements ties) size actor.id (k * size) =
      page size (line (db.selected selection)) k := by
    rw [hpersonal, distinct_of_nodup (ordered_nodup _ _ _), ordered_statement hdiffer]
  rw [postIds_of_some hviewer]
  simp only [Nat.add_sub_cancel, hpage]
  split
  -- the first page has posts
  · rename_i hidle
    obtain ⟨hempty, hfirst⟩ := Bool.and_eq_true_iff.mp hidle
    have hzero : k = 0 := by
      have hle := of_decide_eq_true hfirst
      omega
    subst hzero
    have hnil := List.isEmpty_iff.mp hempty
    rw [page, Nat.zero_mul, List.drop_zero] at hnil
    rcases List.take_eq_nil_iff.mp hnil with hzero | hline
    · exact absurd hzero (Nat.pos_iff_ne_zero.mp hsize)
    · exact absurd hline (line_ne_nil hne)
  · rfl

theorem postIds_of_source (hsize : 0 < size) {user : Option String} {selection : Selection}
    (hsource : db.source user = some selection) (hdiffer : TimesDiffer (db.selected selection))
    (k : Nat) :
  postIds (db.statements ties) size ⟨k + 1, user⟩ = page size (line (db.selected selection)) k
  := by
  rw [Db.source] at hsource
  split at hsource
  · rename_i hviewer
    obtain rfl := Option.some.inj hsource
    rw [postIds_of_none hviewer, Nat.add_sub_cancel, ordered_statement hdiffer]
  · rename_i actor hviewer
    split at hsource
    · rename_i p ps hhashtags hfollowed
      obtain rfl := Option.some.inj hsource
      apply postIds_of_personal hsize hviewer _ hdiffer
      · intro offset
        rw [personalPosts_statements, ordered_of_empty hfollowed, List.append_nil]
      · rw [hhashtags]
        nofun
    · rename_i p ps hhashtags hfollowed
      obtain rfl := Option.some.inj hsource
      apply postIds_of_personal hsize hviewer _ hdiffer
      · intro offset
        rw [personalPosts_statements, ordered_of_empty hhashtags, List.nil_append]
      · rw [hfollowed]
        nofun
    · cases hsource

/-- The pages of a feed that has no posts of its own: the first is that of the public timeline. -/
theorem postIds_of_idle {user : Option String} (h : db.Idle user)
    (hdiffer : TimesDiffer (db.selected .public)) (k : Nat) :
  postIds (db.statements ties) size ⟨k + 1, user⟩ =
    page size (page size (line (db.selected .public)) 0) k
  := by
  obtain ⟨actor, hviewer, hhashtags, hfollowed⟩ := h
  have hnone : ∀ offset, personalPosts (db.statements ties) size actor.id offset = [] := by
    intro offset
    rw [personalPosts_statements, ordered_of_empty hhashtags, ordered_of_empty hfollowed]
    rfl
  rw [postIds_of_some hviewer]
  simp only [Nat.add_sub_cancel, hnone, List.isEmpty_nil, Bool.true_and]
  cases k with
  | zero =>
      rw [if_pos (decide_eq_true (Nat.le_refl (0 + 1))), ordered_statement hdiffer, page, page,
        Nat.zero_mul, List.drop_zero, List.drop_zero, List.take_take, Nat.min_self]
  | succ k =>
      rw [if_neg (by simp), page_eq_nil]
      rw [Nat.succ_mul, page]
      exact (List.length_take_le _ _).trans (Nat.le_add_left _ _)

/-! ### What is shown of a source -/

/-- A post that is found is the one with the identifier. -/
theorem find_post {post : Post} (h : post ∈ db.posts) :
  db.posts.find (·.id == post.id) = some post
  := by
  apply Table.find_eq_some h (beq_self_eq_true post.id)
  intro post' hpost' hid
  apply Table.eq_of_not_apart hpost' h
  exact not_not_intro (eq_of_beq hid)

theorem createdAt_of_shown {viewer : Option Actor} {post : Post} (hpost : post ∈ db.posts)
    {item : FeedPost} (h : db.shown viewer post.id = some item) :
  item.createdAt = post.createdAt
  := by
  obtain ⟨row, hrow, h⟩ := Option.bind_eq_some_iff.mp h
  split at h
  · obtain rfl := Option.some.inj h
    obtain ⟨hmem, hid⟩ := db.post_of_postRow hrow
    have hsame : row.post = post := by
      apply Table.eq_of_not_apart hmem hpost
      exact not_not_intro hid
    rw [← hsame]
  · cases h

/-- What is shown is every post of a selection that may be shown, once each and the newest
first. -/
structure Complete (db : Db) (viewer : Option Actor) (posts : List Post) (items : List FeedPost) :
    Prop where
  each : ∀ item, item ∈ items ↔ ∃ post ∈ posts, db.shown viewer post.id = some item
  descending : items.Pairwise fun p q => q.createdAt < p.createdAt

theorem complete_ordered {viewer : Option Actor} {posts : List Post}
    (hsub : posts ⊆ db.posts.rows) (hnodup : posts.Nodup) (hdiffer : TimesDiffer posts) :
  Complete db viewer posts ((line posts).filterMap (db.shown viewer))
  := by
  have hmem : ∀ post, post ∈ ordered posts ↔ post ∈ posts := by
    intro post
    apply List.mem_insertionSort
  have hstrict : (ordered posts).Pairwise fun p q => q.createdAt < p.createdAt := by
    have hne : (ordered posts).Nodup := (List.perm_insertionSort _ posts).nodup_iff.mpr hnodup
    apply ((pairwise_newestFirst (fun _ => 0) posts).and hne).imp_of_mem
    rintro p q hp hq ⟨hle, hne⟩
    apply lt_of_le_of_ne hle
    intro heq
    exact hne (hdiffer p ((hmem p).mp hp) q ((hmem q).mp hq) heq.symm)
  constructor
  · intro item
    rw [List.mem_filterMap, line]
    constructor
    · rintro ⟨id, hid, hshown⟩
      obtain ⟨post, hpost, rfl⟩ := List.mem_map.mp hid
      exact ⟨post, (hmem post).mp hpost, hshown⟩
    · rintro ⟨post, hpost, hshown⟩
      exact ⟨post.id, List.mem_map_of_mem ((hmem post).mpr hpost), hshown⟩
  · rw [line, List.filterMap_map, List.pairwise_filterMap]
    apply hstrict.imp_of_mem
    intro p q hp hq hlt item hitem item' hitem'
    rw [createdAt_of_shown (hsub ((hmem p).mp hp)) hitem,
      createdAt_of_shown (hsub ((hmem q).mp hq)) hitem']
    exact hlt

/-! ### A single page -/

theorem nodup_distinct (ids : List Uuid) :
  (distinct ids).Nodup
  := by
  induction ids with
  | nil => exact List.nodup_nil
  | cons id ids ih =>
      rw [distinct, List.nodup_cons]
      constructor
      · intro hmem
        have hne := (List.mem_filter.mp hmem).2
        exact absurd rfl (bne_iff_ne.mp hne)
      · exact ih.filter _

theorem postIds_nodup (query : FeedQuery) :
  (postIds (db.statements ties) size query).Nodup
  := by
  cases hviewer : db.viewer query.user with
  | none =>
      rw [postIds_of_none hviewer]
      apply ordered_nodup
  | some actor =>
      rw [postIds_of_some hviewer]
      split
      · apply ordered_nodup
      · rw [personalPosts_statements]
        apply nodup_distinct

theorem postId_of_shown {viewer : Option Actor} {id : Uuid} {item : FeedPost}
    (h : db.shown viewer id = some item) :
  item.postId = id
  := by
  obtain ⟨row, hrow, h⟩ := Option.bind_eq_some_iff.mp h
  split at h
  · obtain rfl := Option.some.inj h
    exact (db.post_of_postRow hrow).2
  · cases h

/-- No page shows a post twice. -/
theorem page_nodup (query : FeedQuery) :
  ((feedPartial (db.statements ties) size query).posts.map (·.postId)).Nodup
  := by
  rw [posts_feedPartial, List.map_filterMap]
  apply List.Nodup.filterMap _ (postIds_nodup query)
  intro id id' postId hid hid'
  obtain ⟨item, hitem, rfl⟩ := Option.map_eq_some_iff.mp hid
  obtain ⟨item', hitem', hsame⟩ := Option.map_eq_some_iff.mp hid'
  rw [← postId_of_shown hitem, ← postId_of_shown hitem', hsame]

theorem exists_of_mem_pages {n : Nat} {query : FeedQuery} {answers : List FeedPartial}
    (h : pages (db.statements ties) size n query = some answers) {answer : FeedPartial}
    (hanswer : answer ∈ answers) :
  ∃ query', answer = feedPartial (db.statements ties) size query'
  := by
  induction n generalizing query answers with
  | zero => cases h
  | succ n ih =>
      rw [pages] at h
      split at h
      · obtain ⟨rest, hrest, rfl⟩ := Option.map_eq_some_iff.mp h
        rcases List.mem_cons.mp hanswer with rfl | hmem
        · exact ⟨query, rfl⟩
        · apply ih hrest hmem
      · obtain rfl := Option.some.inj h
        obtain rfl := List.mem_singleton.mp hanswer
        exact ⟨query, rfl⟩

end Sources

/-! ### What the feed depends on -/

/-- Two databases that agree on what the feed of a user is made of: for nobody on the public
posts, for an actor on the posts and their hashtags and on what the actor follows and has
muted. -/
structure AgreeFor (db db' : Db) (user : Option String) : Prop where
  actors : db'.actors = db.actors
  anonymous : db.viewer user = none → db'.selected .public = db.selected .public
  posts : ∀ actor, db.viewer user = some actor →
    db'.posts = db.posts ∧ db'.postHashtags = db.postHashtags
  followedHashtags : ∀ actor, db.viewer user = some actor →
    db'.followedHashtags actor.id = db.followedHashtags actor.id
  followedActors : ∀ actor, db.viewer user = some actor →
    db'.followedActors actor.id = db.followedActors actor.id
  isMuted : ∀ actor, db.viewer user = some actor →
    db'.isMuted actor.id = db.isMuted actor.id

section Agree

variable {db db' : Db} {user : Option String}

theorem AgreeFor.viewer (h : AgreeFor db db' user) :
  db'.viewer user = db.viewer user
  := by
  rw [Db.viewer, Db.viewer]
  congr 1
  funext username
  rw [Db.findLocal, Db.findLocal, h.actors]

/-- An actor is followed just if a row says so. -/
theorem any_follows (db : Db) (follower following : Uuid) :
  (db.follows.rows.any fun f =>
      f.followingId == following && f.followerId == follower && f.accepted) =
    (db.followedActors follower).contains following
  := by
  rw [Bool.eq_iff_iff, List.any_eq_true, List.contains_iff_mem, Db.followedActors, List.mem_map]
  constructor
  · rintro ⟨f, hf, h⟩
    simp only [Bool.and_eq_true, beq_iff_eq] at h
    obtain ⟨⟨hfollowing, hfollower⟩, haccepted⟩ := h
    refine ⟨f, List.mem_filter.mpr ⟨hf, ?_⟩, hfollowing⟩
    simp [hfollower, haccepted]
  · rintro ⟨f, hf, hfollowing⟩
    obtain ⟨hmem, h⟩ := List.mem_filter.mp hf
    refine ⟨f, hmem, ?_⟩
    simp only [Bool.and_eq_true, beq_iff_eq] at h ⊢
    exact ⟨⟨hfollowing, h.1⟩, h.2⟩

theorem AgreeFor.selected {actor : Actor} (h : AgreeFor db db' user)
    (hviewer : db.viewer user = some actor) {selection : Selection}
    (hselection : selection = .public ∨ selection = .followed actor.id ∨
      ∃ hashtagIds, selection = .hashtags hashtagIds) :
  db'.selected selection = db.selected selection
  := by
  obtain ⟨hposts, hhashtags⟩ := h.posts actor hviewer
  rcases hselection with rfl | rfl | ⟨hashtagIds, rfl⟩
  · rw [Db.selected, Db.selected, hposts]
  · simp only [Db.selected, any_follows, hposts, h.followedActors actor hviewer]
  · simp only [Db.selected, hposts, hhashtags]

theorem ordered_congr {selection : Selection} (h : db'.selected selection = db.selected selection)
    (ties : Ties) (limit offset : Nat) :
  db'.ordered ties selection limit offset = db.ordered ties selection limit offset
  := by
  rw [Db.ordered, Db.ordered, h]

theorem AgreeFor.postIds (h : AgreeFor db db' user) (ties : Ties) (size k : Nat) :
  postIds (db'.statements ties) size ⟨k, user⟩ = postIds (db.statements ties) size ⟨k, user⟩
  := by
  have hviewer' := h.viewer
  cases hviewer : db.viewer user with
  | none =>
      rw [hviewer] at hviewer'
      rw [postIds_of_none hviewer', postIds_of_none hviewer, ordered_congr (h.anonymous hviewer)]
  | some actor =>
      rw [hviewer] at hviewer'
      rw [postIds_of_some hviewer', postIds_of_some hviewer, personalPosts_statements,
        personalPosts_statements, h.followedHashtags actor hviewer,
        ordered_congr (h.selected hviewer (.inl rfl)),
        ordered_congr (h.selected hviewer (.inr (.inl rfl))),
        ordered_congr (h.selected hviewer (.inr (.inr ⟨_, rfl⟩)))]

theorem mem_of_mem_ordered {ties : Ties} {selection : Selection} {limit offset : Nat} {id : Uuid}
    (h : id ∈ db.ordered ties selection limit offset) :
  ∃ post ∈ db.selected selection, post.id = id
  := by
  obtain ⟨post, hpost, rfl⟩ := List.mem_map.mp h
  have hmem := List.mem_of_mem_drop (List.mem_of_mem_take hpost)
  exact ⟨post, (List.mem_insertionSort _).mp hmem, rfl⟩

/-- The row of a public post, in databases that agree on these. -/
theorem AgreeFor.postRow (h : AgreeFor db db' user) (hviewer : db.viewer user = none) {post : Post}
    (hpost : post ∈ db.selected .public) :
  db'.postRow post.id = db.postRow post.id
  := by
  have hpost' : post ∈ db'.selected .public := by
    rw [h.anonymous hviewer]
    exact hpost
  have hmem : post ∈ db.posts := List.mem_of_mem_filter hpost
  have hmem' : post ∈ db'.posts := List.mem_of_mem_filter hpost'
  rw [Db.postRow, Db.postRow, find_post hmem, find_post hmem', h.actors]

theorem AgreeFor.mayShow (h : AgreeFor db db' user) (row : PostRow) :
  db'.mayShow (db.viewer user) row = db.mayShow (db.viewer user) row
  := by
  rw [Db.mayShow, Db.mayShow]
  cases hviewer : db.viewer user with
  | none => rfl
  | some actor =>
      simp only [Option.all_some, Option.any_some, h.isMuted actor hviewer,
        h.followedActors actor hviewer]

theorem AgreeFor.shown (h : AgreeFor db db' user) {id : Uuid}
    (hrow : db'.postRow id = db.postRow id) :
  db'.shown (db.viewer user) id = db.shown (db.viewer user) id
  := by
  have hblur : db'.blur (db.viewer user) = db.blur (db.viewer user) := by
    cases db.viewer user with
    | none => rfl
    | some actor => simp only [Db.blur, h.actors]
  rw [Db.shown, Db.shown, hrow]
  simp only [h.mayShow, hblur]

/-- Databases that agree on what the feed of a user is made of have the same feed. -/
theorem AgreeFor.feedPartial (h : AgreeFor db db' user) (ties : Ties) (size k : Nat) :
  feedPartial (db'.statements ties) size ⟨k, user⟩ =
    feedPartial (db.statements ties) size ⟨k, user⟩
  := by
  have hposts : (Feed.feedPartial (db'.statements ties) size ⟨k, user⟩).posts =
      (Feed.feedPartial (db.statements ties) size ⟨k, user⟩).posts := by
    rw [posts_feedPartial, posts_feedPartial, h.postIds, h.viewer]
    apply List.filterMap_congr
    intro id hid
    apply h.shown
    cases hviewer : db.viewer user with
    | none =>
        rw [postIds_of_none hviewer] at hid
        obtain ⟨post, hpost, rfl⟩ := mem_of_mem_ordered hid
        apply h.postRow hviewer hpost
    | some actor => rw [Db.postRow, Db.postRow, (h.posts actor hviewer).1, h.actors]
  rw [Feed.feedPartial] at hposts ⊢
  rw [Feed.feedPartial] at hposts ⊢
  dsimp only at hposts ⊢
  rw [hposts]

end Agree

/-! ### The feed as a whole -/

/-- An author, another who is silenced, and a reader. -/
def people : Table Actor.Apart :=
  ⟨[⟨1, "ann", none, true, .active, true⟩, ⟨2, "bob", none, true, .silenced, true⟩,
    ⟨3, "eve", none, true, .active, true⟩], by decide⟩

/-- Posts of the author, with one of the silenced author among the first twenty. -/
def crowd : Table Post.Apart :=
  ⟨(List.range 21).map fun i =>
    ⟨i, if i = 4 then 2 else 1, .public, 100 - i, "", "", false⟩, by decide⟩

def crowded : Db :=
  ⟨people, crowd, .empty, [], [], [], 0⟩

/-- The reader follows somebody. -/
def reading (following : Uuid) : Db :=
  ⟨people, crowd, ⟨[⟨3, following, true⟩], List.pairwise_singleton _ _⟩, [], [], [], 0⟩

/-- Two posts, on one page. -/
def quiet : Db :=
  ⟨people, ⟨[⟨0, 1, .public, 1, "", "", false⟩, ⟨1, 1, .public, 2, "", "", false⟩], by decide⟩,
    .empty, [], [], [], 0⟩

end Feed
