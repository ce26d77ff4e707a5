import Noombat.Relational

/-!
# What deletions leave

A deletion takes the rows that it names and those that refer to them by a foreign key that
cascades; of the others it takes at most references.  `Reduces gone lost db db'` says so of two
databases, where `gone` holds of the rows that may go, and `lost` of the references that may be
set to null.  Rows that refer only to rows that are there still do afterwards: whatever referred to
a row that is gone has gone too, or has lost the reference.
-/

namespace Relational

namespace Schema

variable {Table Column : Type} {Data : Table → Type} (s : Schema Table Column Data)

/-- What goes with the rows that satisfy `p`: these, and whatever refers, by a foreign key that
cascades, to what goes. -/
inductive Goes (db : Database Table Column Data) (p : (t : Table) → Row Column (Data t) → Bool) :
    Table → Nat → Prop where
  | named {t : Table} {r : Row Column (Data t)} : r ∈ db t → p t r = true → Goes db p t r.id
  | cascade {fk : ForeignKey Table Column} {r : Row Column (Data fk.table)} {key : Nat} :
      fk ∈ s.foreignKeys → fk.onDelete = .cascade → r ∈ db fk.table →
        r.ref fk.column = some key → Goes db p fk.target key → Goes db p fk.table r.id

/-- Every reference is to a row that is there. -/
def Refers (db : Database Table Column Data) : Prop :=
  ∀ fk ∈ s.foreignKeys, ∀ r ∈ db fk.table, ∀ key, r.ref fk.column = some key →
    ∃ r' ∈ db fk.target, r'.id = key

/-- Whatever cascades from what may go may go. -/
def Closed (gone : Table → Nat → Prop) (db : Database Table Column Data) : Prop :=
  ∀ fk ∈ s.foreignKeys, fk.onDelete = .cascade → ∀ r ∈ db fk.table, ∀ key,
    r.ref fk.column = some key → gone fk.target key → gone fk.table r.id

/-- References to what may go may be lost, where the deletion sets them to null. -/
def Releases (gone : Table → Nat → Prop) (lost : Table → Column → Nat → Prop) : Prop :=
  ∀ fk ∈ s.foreignKeys, fk.onDelete = .setNull → ∀ key, gone fk.target key →
    lost fk.table fk.column key

/-- A row that has lost references, and nothing else. -/
structure Loses (lost : Table → Column → Nat → Prop) (t : Table) (r r' : Row Column (Data t)) :
    Prop where
  id : r'.id = r.id
  data : r'.data = r.data
  ref : ∀ c, r'.ref c = r.ref c ∨
    r'.ref c = none ∧ ∃ key, r.ref c = some key ∧ lost t c key

/-- Rows have gone that may go, and have lost references that may be lost. -/
structure Reduces (gone : Table → Nat → Prop) (lost : Table → Column → Nat → Prop)
    (db db' : Database Table Column Data) : Prop where
  old : ∀ t, ∀ r' ∈ db' t, ∃ r ∈ db t, Loses lost t r r'
  kept : ∀ t, ∀ r ∈ db t, ¬ gone t r.id → ∃ r' ∈ db' t, Loses lost t r r'

section Loses

variable {lost : Table → Column → Nat → Prop} {t : Table} {r r' r'' : Row Column (Data t)}

theorem Loses.refl (r : Row Column (Data t)) :
  Loses lost t r r
  := ⟨rfl, rfl, fun _ => .inl rfl⟩

/-- A row has no references that it had not before. -/
theorem Loses.some (h : Loses lost t r r') {c : Column} {key : Nat} (href : r'.ref c = some key) :
  r.ref c = some key
  := by
  rcases h.ref c with hsame | ⟨hnone, _⟩
  · rw [← hsame]
    exact href
  · rw [hnone] at href
    cases href

theorem Loses.trans (h : Loses lost t r r') (h' : Loses lost t r' r'') :
  Loses lost t r r''
  := by
  constructor
  · exact h'.id.trans h.id
  · exact h'.data.trans h.data
  · intro c
    rcases h'.ref c with hsame | ⟨hnone, key, href, hlost⟩
    · rw [hsame]
      exact h.ref c
    · exact .inr ⟨hnone, key, h.some href, hlost⟩

/-- A row that has lost all that it may lose is determined by what it was. -/
theorem Loses.unique (h : Loses lost t r r') (h' : Loses lost t r r'')
    (hlost : ∀ c key, r.ref c = Option.some key → lost t c key → r'.ref c = none ∧ r''.ref c = none) :
  r' = r''
  := by
  have href : r'.ref = r''.ref := by
    funext c
    rcases h.ref c with hsame | ⟨_, key, href, hkey⟩
    · rcases h'.ref c with hsame' | ⟨_, key, href, hkey⟩
      · rw [hsame, hsame']
      · obtain ⟨hnone, hnone'⟩ := hlost c key href hkey
        rw [hnone, hnone']
    · obtain ⟨hnone, hnone'⟩ := hlost c key href hkey
      rw [hnone, hnone']
  obtain ⟨id, ref, data⟩ := r'
  obtain ⟨id', ref', data'⟩ := r''
  obtain rfl : ref = ref' := href
  obtain rfl : id = id' := h.id.trans h'.id.symm
  obtain rfl : data = data' := h.data.trans h'.data.symm
  rfl

theorem Loses.mono {lost' : Table → Column → Nat → Prop} (h : Loses lost t r r')
    (hlost : ∀ c key, r.ref c = Option.some key → lost t c key → lost' t c key) :
  Loses lost' t r r'
  := by
  constructor
  · exact h.id
  · exact h.data
  · intro c
    rcases h.ref c with hsame | ⟨hnone, key, href, hkey⟩
    · exact .inl hsame
    · exact .inr ⟨hnone, key, href, hlost c key href hkey⟩

/-- A row that no longer has a reference has none in its place. -/
theorem Loses.none (h : Loses lost t r r') {c : Column} {key : Nat}
    (href : r.ref c = Option.some key) (hne : r'.ref c ≠ Option.some key) :
  r'.ref c = Option.none
  := by
  rcases h.ref c with hsame | ⟨hnone, _⟩
  · exact absurd (hsame.trans href) hne
  · exact hnone

/-- A row loses one reference. -/
theorem Loses.clear [DecidableEq Column] {c : Column} {key : Nat} (href : r.ref c = Option.some key)
    (hlost : lost t c key) :
  Loses lost t r (r.clear c)
  := by
  constructor
  · rfl
  · rfl
  · intro c'
    by_cases hc : c' = c
    · subst hc
      exact .inr ⟨r.ref_clear_self c', key, href, hlost⟩
    · exact .inl (r.ref_clear_of_ne hc)

end Loses

section Reduces

variable {s} {gone : Table → Nat → Prop} {lost : Table → Column → Nat → Prop}
  {db db' db'' : Database Table Column Data}

theorem Reduces.refl (db : Database Table Column Data) :
  Reduces gone lost db db
  := ⟨fun _ r hr => ⟨r, hr, .refl r⟩, fun _ r hr _ => ⟨r, hr, .refl r⟩⟩

theorem Reduces.trans (h : Reduces gone lost db db') (h' : Reduces gone lost db' db'') :
  Reduces gone lost db db''
  := by
  constructor
  · intro t r'' hr''
    obtain ⟨r', hr', hloses'⟩ := h'.old t r'' hr''
    obtain ⟨r, hr, hloses⟩ := h.old t r' hr'
    exact ⟨r, hr, hloses.trans hloses'⟩
  · intro t r hr hkept
    obtain ⟨r', hr', hloses⟩ := h.kept t r hr hkept
    rw [← hloses.id] at hkept
    obtain ⟨r'', hr'', hloses'⟩ := h'.kept t r' hr' hkept
    exact ⟨r'', hr'', hloses.trans hloses'⟩

theorem Reduces.closed (h : Reduces gone lost db db') (hclosed : s.Closed gone db) :
  s.Closed gone db'
  := by
  intro fk hfk hcascade r' hr' key href hgone
  obtain ⟨r, hr, hloses⟩ := h.old fk.table r' hr'
  rw [hloses.id]
  exact hclosed fk hfk hcascade r hr key (hloses.some href) hgone

/-- What goes with some rows is closed. -/
theorem closed_goes (db : Database Table Column Data)
    (p : (t : Table) → Row Column (Data t) → Bool) :
  s.Closed (s.Goes db p) db
  := fun _ hfk hcascade _ hr _ href hgone => .cascade hfk hcascade hr href hgone

end Reduces

/-! ### Deletions -/

variable [DecidableEq Column] [DecidableEq Table]

section Deletions

variable {s} {gone : Table → Nat → Prop} {lost : Table → Column → Nat → Prop}
  {db db' : Database Table Column Data}

omit [DecidableEq Table] in
/-- What an action that succeeds leaves of the rows of its table, and what it deletes. -/
theorem fireRows_ok {t : Table} {column : Column} {onDelete : OnDelete} {key : Nat}
    {rows rows' : List (Row Column (Data t))} {deleted : List Nat}
    (hok : s.fireRows t column onDelete key rows = .ok (rows', deleted)) :
  rows' = left column onDelete key rows ∧
    (∀ id ∈ deleted, onDelete = .cascade ∧ ∃ r ∈ rows, r.ref column = some key ∧ id = r.id) ∧
    (onDelete = .cascade → ∀ r ∈ rows, r.ref column = some key → r.id ∈ deleted) ∧
    (onDelete = .noAction → ∀ r ∈ rows, r.ref column ≠ some key)
  := by
  cases onDelete with
  | cascade =>
      cases hok
      refine ⟨rfl, ?_, ?_, (by intro h; cases h)⟩
      · intro id hid
        simp only [List.mem_map, List.mem_filter, beq_iff_eq] at hid
        obtain ⟨r, ⟨hr, href⟩, rfl⟩ := hid
        exact ⟨rfl, r, hr, href, rfl⟩
      · intro _ r hr href
        simp only [List.mem_map, List.mem_filter, beq_iff_eq]
        exact ⟨r, ⟨hr, href⟩, rfl⟩
  | setNull =>
      rw [fireRows, rewrite] at hok
      by_cases hchecks : (rows.all fun r => !(r.ref column == some key) ||
          s.check t (r.clear column)) = true
      · by_cases hdistinct : s.Distinct t
            (rows.map fun r => if r.ref column == some key then r.clear column else r)
        · rw [if_pos hchecks, if_pos hdistinct] at hok
          cases hok
          exact ⟨rfl, (by intro _ h; cases h), (by intro h; cases h), (by intro h; cases h)⟩
        · rw [if_pos hchecks, if_neg hdistinct] at hok
          cases hok
      · rw [if_neg hchecks] at hok
        cases hok
  | noAction =>
      rw [fireRows] at hok
      split at hok
      · cases hok
      · rename_i hnone
        cases hok
        refine ⟨rfl, (by intro _ h; cases h), (by intro h; cases h), ?_⟩
        intro _ r hr href
        exact hnone (List.any_eq_true.mpr ⟨r, hr, beq_iff_eq.mpr href⟩)

/-- What an action that succeeds leaves, and what it deletes. -/
theorem fire_ok {fk : ForeignKey Table Column} {key : Nat} {deleted : List (Table × Nat)}
    (hok : s.fire fk key db = .ok (db', deleted)) :
  db' = Function.update db fk.table (left fk.column fk.onDelete key (db fk.table)) ∧
    (∀ x ∈ deleted, fk.onDelete = .cascade ∧
      ∃ r ∈ db fk.table, r.ref fk.column = some key ∧ x = (fk.table, r.id)) ∧
    (fk.onDelete = .cascade → ∀ r ∈ db fk.table, r.ref fk.column = some key →
      (fk.table, r.id) ∈ deleted) ∧
    (fk.onDelete = .noAction → ∀ r ∈ db fk.table, r.ref fk.column ≠ some key)
  := by
  rw [fire] at hok
  split at hok
  · cases hok
  · rename_i rows ids hrows
    cases hok
    obtain ⟨rfl, hdeleted, hcascade, hnone⟩ := fireRows_ok hrows
    refine ⟨rfl, ?_, ?_, hnone⟩
    · intro x hx
      obtain ⟨id, hid, rfl⟩ := List.mem_map.mp hx
      obtain ⟨honDelete, r, hr, href, rfl⟩ := hdeleted id hid
      exact ⟨honDelete, r, hr, href, rfl⟩
    · intro honDelete r hr href
      exact List.mem_map.mpr ⟨r.id, hcascade honDelete r hr href, rfl⟩

/-- An action for what may go takes what may go, and references that may be lost. -/
theorem reduces_left {fk : ForeignKey Table Column} {key : Nat} (hfk : fk ∈ s.foreignKeys)
    (hkey : gone fk.target key) (hclosed : s.Closed gone db) (hreleases : s.Releases gone lost) :
  Reduces gone lost db
    (Function.update db fk.table (left fk.column fk.onDelete key (db fk.table)))
  := by
  constructor
  · intro t r' hr'
    by_cases ht : t = fk.table
    · subst ht
      rw [Function.update_self] at hr'
      cases hdelete : fk.onDelete with
      | cascade =>
          rw [hdelete] at hr'
          exact ⟨r', List.mem_of_mem_filter hr', .refl r'⟩
      | setNull =>
          rw [hdelete] at hr'
          obtain ⟨r, hr, rfl⟩ := List.mem_map.mp hr'
          refine ⟨r, hr, ?_⟩
          split
          · rename_i href
            exact .clear (beq_iff_eq.mp href) (hreleases fk hfk hdelete key hkey)
          · exact .refl r
      | noAction =>
          rw [hdelete] at hr'
          exact ⟨r', hr', .refl r'⟩
    · rw [Function.update_of_ne ht] at hr'
      exact ⟨r', hr', .refl r'⟩
  · intro t r hr hkept
    by_cases ht : t = fk.table
    · subst ht
      rw [Function.update_self]
      cases hdelete : fk.onDelete with
      | cascade =>
          refine ⟨r, List.mem_filter.mpr ⟨hr, ?_⟩, .refl r⟩
          rw [bne_iff_ne]
          intro href
          exact hkept (hclosed fk hfk hdelete r hr key href hkey)
      | setNull =>
          refine ⟨_, List.mem_map.mpr ⟨r, hr, rfl⟩, ?_⟩
          split
          · rename_i href
            exact .clear (beq_iff_eq.mp href) (hreleases fk hfk hdelete key hkey)
          · exact .refl r
      | noAction => exact ⟨r, hr, .refl r⟩
    · rw [Function.update_of_ne ht]
      exact ⟨r, hr, .refl r⟩

/-- Actions for what may go, in turn. -/
theorem reduces_fireAll {events : List (ForeignKey Table Column × Nat)}
    {deleted : List (Table × Nat)}
    (hevents : ∀ event ∈ events, event.1 ∈ s.foreignKeys ∧ gone event.1.target event.2)
    (hclosed : s.Closed gone db) (hreleases : s.Releases gone lost)
    (hok : s.fireAll events db = .ok (db', deleted)) :
  Reduces gone lost db db' ∧ ∀ x ∈ deleted, gone x.1 x.2
  := by
  induction events generalizing db deleted with
  | nil =>
      cases hok
      exact ⟨.refl _, nofun⟩
  | cons event events ih =>
      obtain ⟨fk, key⟩ := event
      obtain ⟨hfk, hkey⟩ := hevents (fk, key) List.mem_cons_self
      rw [fireAll] at hok
      split at hok
      · cases hok
      · rename_i db₁ deleted₁ hfirst
        split at hok
        · cases hok
        · rename_i db₂ deleted₂ hrest
          cases hok
          obtain ⟨rfl, hdeleted₁, _⟩ := fire_ok hfirst
          have hreduces := reduces_left hfk hkey hclosed hreleases
          obtain ⟨hreduces₂, hdeleted₂⟩ :=
            ih (fun event hevent => hevents event (List.mem_cons_of_mem _ hevent))
              (hreduces.closed hclosed) hrest
          refine ⟨hreduces.trans hreduces₂, fun x hx => ?_⟩
          rcases List.mem_append.mp hx with hx | hx
          · obtain ⟨hcascade, r, hr, href, rfl⟩ := hdeleted₁ x hx
            exact hclosed fk hfk hcascade r hr key href hkey
          · exact hdeleted₂ x hx

theorem reduces_settle {n : Nat} {deleted : List (Table × Nat)}
    (hdeleted : ∀ x ∈ deleted, gone x.1 x.2) (hclosed : s.Closed gone db)
    (hreleases : s.Releases gone lost) (hok : s.settle n deleted db = .ok db') :
  Reduces gone lost db db'
  := by
  induction n generalizing deleted db with
  | zero =>
      cases deleted with
      | nil =>
          cases hok
          exact .refl _
      | cons x deleted => cases hok
  | succ n ih =>
      cases deleted with
      | nil =>
          cases hok
          exact .refl _
      | cons x deleted =>
          rw [settle] at hok
          split at hok
          · cases hok
          · rename_i db₁ deleted₁ hfires
            have hevents : ∀ event ∈ s.events (x :: deleted),
                event.1 ∈ s.foreignKeys ∧ gone event.1.target event.2 := by
              intro event hevent
              obtain ⟨hfk, _⟩ := mem_events hevent
              refine ⟨hfk, ?_⟩
              obtain ⟨z, hz, hevent⟩ := List.mem_flatMap.mp hevent
              obtain ⟨fk, hfk', rfl⟩ := List.mem_map.mp hevent
              have htable : fk.target = z.1 := of_decide_eq_true (List.mem_filter.mp hfk').2
              rw [htable]
              exact hdeleted z hz
            have hreduces : Reduces gone lost db db₁ ∧ ∀ x ∈ deleted₁, gone x.1 x.2 :=
              reduces_fireAll hevents hclosed hreleases hfires
            obtain ⟨hreduces, hdeleted₁⟩ := hreduces
            exact hreduces.trans (ih hdeleted₁ (hreduces.closed hclosed) hok)

/-- A deletion takes what it names, and what goes with it. -/
theorem reduces_delete {t : Table} {p : Row Column (Data t) → Bool}
    (hnamed : ∀ r ∈ db t, p r = true → gone t r.id) (hclosed : s.Closed gone db)
    (hreleases : s.Releases gone lost) (hok : s.delete t p db = .ok db') :
  Reduces gone lost db db'
  := by
  have hfirst : Reduces gone lost db (Function.update db t ((db t).filter fun r => !p r)) := by
    constructor
    · intro t' r' hr'
      by_cases ht : t' = t
      · subst ht
        rw [Function.update_self] at hr'
        exact ⟨r', List.mem_of_mem_filter hr', .refl r'⟩
      · rw [Function.update_of_ne ht] at hr'
        exact ⟨r', hr', .refl r'⟩
    · intro t' r hr hkept
      refine ⟨r, ?_, .refl r⟩
      by_cases ht : t' = t
      · subst ht
        rw [Function.update_self]
        refine List.mem_filter.mpr ⟨hr, ?_⟩
        rw [Bool.not_eq_true']
        apply Bool.eq_false_iff.mpr
        intro hp
        exact hkept (hnamed r hr hp)
      · rw [Function.update_of_ne ht]
        exact hr
  apply hfirst.trans
  apply reduces_settle _ (hfirst.closed hclosed) hreleases hok
  intro x hx
  obtain ⟨r, hr, rfl⟩ := List.mem_map.mp hx
  obtain ⟨hr, hp⟩ := List.mem_filter.mp hr
  exact hnamed r hr hp

/-! ### References -/

/-- Every reference is to a row that is there, or to one whose deletion is yet to be acted upon. -/
def Pends (s : Schema Table Column Data) (pending : ForeignKey Table Column → Nat → Prop)
    (db : Database Table Column Data) : Prop :=
  ∀ fk ∈ s.foreignKeys, ∀ r ∈ db fk.table, ∀ key, r.ref fk.column = some key →
    (∃ r' ∈ db fk.target, r'.id = key) ∨ pending fk key

/-- An action settles the references that it is about, and leaves those to what it deletes. -/
theorem pends_left {fk : ForeignKey Table Column} {key : Nat} {deleted : List (Table × Nat)}
    {pending : ForeignKey Table Column → Nat → Prop} (hok : s.fire fk key db = .ok (db', deleted))
    (h : s.Pends pending db) :
  s.Pends (fun fk' key' => (pending fk' key' ∧ (fk', key') ≠ (fk, key)) ∨
    (fk'.target, key') ∈ deleted) db'
  := by
  obtain ⟨rfl, _, hdeleted, hnone⟩ := fire_ok hok
  intro fk' hfk' r' hr' key' href'
  -- the row has the references that it had
  have hold : ∃ r ∈ db fk'.table, r.ref fk'.column = some key' ∧
      ((fk', key') = (fk, key) → fk.onDelete = .noAction) := by
    by_cases ht : fk'.table = fk.table
    · obtain ⟨table, column, target, onDelete⟩ := fk
      obtain ⟨table', column', target', onDelete'⟩ := fk'
      obtain rfl : table' = table := ht
      simp only [Function.update_self] at hr'
      cases onDelete with
      | cascade =>
          obtain ⟨hr, hne⟩ := List.mem_filter.mp hr'
          refine ⟨r', hr, href', ?_⟩
          rintro ⟨⟩
          exact absurd href' (by simpa using hne)
      | setNull =>
          obtain ⟨r, hr, rfl⟩ := List.mem_map.mp hr'
          split at href'
          · refine ⟨r, hr, ?_, ?_⟩
            · by_cases hc : column' = column
              · subst hc
                rw [Row.ref_clear_self] at href'
                cases href'
              · rwa [Row.ref_clear_of_ne hc] at href'
            · rintro ⟨⟩
              rw [Row.ref_clear_self] at href'
              cases href'
          · rename_i hne
            refine ⟨r, hr, href', ?_⟩
            rintro ⟨⟩
            exact absurd (beq_iff_eq.mpr href') hne
      | noAction => exact ⟨r', hr', href', fun _ => rfl⟩
    · rw [Function.update_of_ne ht] at hr'
      refine ⟨r', hr', href', ?_⟩
      rintro ⟨⟩
      exact absurd rfl ht
  obtain ⟨r, hr, href, hsame⟩ := hold
  rcases h fk' hfk' r hr key' href with ⟨x, hx, hid⟩ | hpending
  · -- what it refers to is still there, or is deleted
    by_cases ht : fk'.target = fk.table
    · by_cases hgoes : fk.onDelete = .cascade ∧ (ht ▸ x).ref fk.column = some key
      · right
        right
        obtain ⟨table, column, target, onDelete⟩ := fk
        obtain ⟨table', column', target', onDelete'⟩ := fk'
        obtain rfl : target' = table := ht
        rw [← hid]
        exact hdeleted hgoes.1 x hx hgoes.2
      · left
        obtain ⟨table, column, target, onDelete⟩ := fk
        obtain ⟨table', column', target', onDelete'⟩ := fk'
        obtain rfl : target' = table := ht
        simp only [Function.update_self]
        cases onDelete with
        | cascade =>
            refine ⟨x, List.mem_filter.mpr ⟨hx, ?_⟩, hid⟩
            rw [bne_iff_ne]
            exact fun href => hgoes ⟨rfl, href⟩
        | setNull =>
            refine ⟨_, List.mem_map.mpr ⟨x, hx, rfl⟩, ?_⟩
            split
            · exact hid
            · exact hid
        | noAction => exact ⟨x, hx, hid⟩
    · left
      rw [Function.update_of_ne ht]
      exact ⟨x, hx, hid⟩
  · by_cases heq : (fk', key') = (fk, key)
    · -- nothing refers to what an action forbids to delete
      obtain ⟨rfl, rfl⟩ := Prod.mk.inj heq
      exact absurd href (hnone (hsame heq) r hr)
    · exact .inr (.inl ⟨hpending, heq⟩)

theorem pends_fireAll {events : List (ForeignKey Table Column × Nat)}
    {deleted deleted₀ : List (Table × Nat)} (hok : s.fireAll events db = .ok (db', deleted))
    (h : s.Pends (fun fk key => (fk, key) ∈ events ∨ (fk.target, key) ∈ deleted₀) db) :
  s.Pends (fun fk key => (fk.target, key) ∈ deleted₀ ++ deleted) db'
  := by
  induction events generalizing db deleted deleted₀ with
  | nil =>
      cases hok
      intro fk hfk r hr key href
      rcases h fk hfk r hr key href with hthere | hevent | hdeleted
      · exact .inl hthere
      · cases hevent
      · exact .inr (List.mem_append_left _ hdeleted)
  | cons event events ih =>
      obtain ⟨fk, key⟩ := event
      rw [fireAll] at hok
      split at hok
      · cases hok
      · rename_i db₁ deleted₁ hfirst
        split at hok
        · cases hok
        · rename_i db₂ deleted₂ hrest
          cases hok
          have hpends := pends_left hfirst h
          have hnext : s.Pends (fun fk key => (fk, key) ∈ events ∨
              (fk.target, key) ∈ deleted₀ ++ deleted₁) db₁ := by
            intro fk' hfk' r hr key' href
            rcases hpends fk' hfk' r hr key' href with hthere | ⟨hevent | hdeleted, hne⟩ | hdeleted
            · exact .inl hthere
            · rcases List.mem_cons.mp hevent with heq | hevent
              · exact absurd heq hne
              · exact .inr (.inl hevent)
            · exact .inr (.inr (List.mem_append_left _ hdeleted))
            · exact .inr (.inr (List.mem_append_right _ hdeleted))
          have hlast := ih hrest hnext
          rw [List.append_assoc] at hlast
          exact hlast

theorem refers_settle {n : Nat} {deleted : List (Table × Nat)}
    (hok : s.settle n deleted db = .ok db')
    (h : s.Pends (fun fk key => (fk.target, key) ∈ deleted) db) :
  s.Refers db'
  := by
  have hnil : ∀ {db}, s.Pends (fun fk key => (fk.target, key) ∈ ([] : List (Table × Nat))) db →
      s.Refers db := by
    intro db h fk hfk r hr key href
    rcases h fk hfk r hr key href with hthere | hdeleted
    · exact hthere
    · cases hdeleted
  induction n generalizing deleted db with
  | zero =>
      cases deleted with
      | nil =>
          cases hok
          exact hnil h
      | cons x deleted => cases hok
  | succ n ih =>
      cases deleted with
      | nil =>
          cases hok
          exact hnil h
      | cons x deleted =>
          rw [settle] at hok
          split at hok
          · cases hok
          · rename_i db₁ deleted₁ hfires
            apply ih hok
            change s.Pends (fun fk key => (fk.target, key) ∈ [] ++ deleted₁) db₁
            apply pends_fireAll hfires
            -- every foreign key to a row that is deleted acts
            intro fk hfk r hr key href
            rcases h fk hfk r hr key href with hthere | hdeleted
            · exact .inl hthere
            · right
              left
              refine List.mem_flatMap.mpr ⟨_, hdeleted, ?_⟩
              refine List.mem_map.mpr ⟨fk, List.mem_filter.mpr ⟨hfk, ?_⟩, rfl⟩
              exact decide_eq_true rfl

/-- A deletion that succeeds leaves no reference to what is not there. -/
theorem refers_delete {t : Table} {p : Row Column (Data t) → Bool}
    (hok : s.delete t p db = .ok db') (h : s.Refers db) :
  s.Refers db'
  := by
  apply refers_settle hok
  intro fk hfk r hr key href
  have hr' : r ∈ db fk.table := by
    by_cases ht : fk.table = t
    · obtain ⟨table, column, target, onDelete⟩ := fk
      obtain rfl : table = t := ht
      simp only [Function.update_self] at hr
      exact List.mem_of_mem_filter hr
    · rwa [Function.update_of_ne ht] at hr
  obtain ⟨x, hx, hid⟩ := h fk hfk r hr' key href
  by_cases ht : fk.target = t
  · obtain ⟨table, column, target, onDelete⟩ := fk
    obtain rfl : target = t := ht
    cases hp : p x with
    | true =>
        right
        exact List.mem_map.mpr ⟨x, List.mem_filter.mpr ⟨hx, hp⟩, by rw [hid]⟩
    | false =>
        left
        simp only [Function.update_self]
        exact ⟨x, List.mem_filter.mpr ⟨hx, by rw [hp]; rfl⟩, hid⟩
  · left
    rw [Function.update_of_ne ht]
    exact ⟨x, hx, hid⟩

/-! ### Statements -/

/-- A row that a statement would name, after references were lost, is one that it would name
before. -/
def Falling (lost : Table → Column → Nat → Prop) {t : Table} (p : Row Column (Data t) → Bool) :
    Prop :=
  ∀ r r', Loses lost t r r' → p r' = true → p r = true

/-- A statement deletes what may go, or takes references that may be lost. -/
def Statement.Covered (gone : Table → Nat → Prop) (lost : Table → Column → Nat → Prop)
    (db : Database Table Column Data) : Statement Table Column Data → Prop
  | .delete t p => Falling lost p ∧ ∀ r ∈ db t, p r = true → gone t r.id
  | .update t p f => Falling lost p ∧ ∀ r, p r = true → Loses lost t r (f r) ∧ p (f r) = false

/-- Nothing is left of what a statement names. -/
def Statement.Done (db : Database Table Column Data) : Statement Table Column Data → Prop
  | .delete t p => ∀ r ∈ db t, p r = false
  | .update t p _ => ∀ r ∈ db t, p r = false

omit [DecidableEq Column] [DecidableEq Table] in
theorem Falling.none {t : Table} {p : Row Column (Data t) → Bool} (hp : Falling lost p)
    (hreduces : Reduces gone lost db db') (h : ∀ r ∈ db t, p r = false) :
  ∀ r ∈ db' t, p r = false
  := by
  intro r' hr'
  obtain ⟨r, hr, hloses⟩ := hreduces.old t r' hr'
  apply Bool.eq_false_iff.mpr
  intro hp'
  have hbefore := h r hr
  rw [hp r r' hloses hp'] at hbefore
  cases hbefore

omit [DecidableEq Column] [DecidableEq Table] in
theorem Statement.Done.reduces {db₀ : Database Table Column Data}
    {statement : Statement Table Column Data} (hcovered : statement.Covered gone lost db₀)
    (hdone : statement.Done db) (hreduces : Reduces gone lost db db') :
  statement.Done db'
  := by
  cases statement with
  | delete t p => exact hcovered.1.none hreduces hdone
  | update t p f => exact hcovered.1.none hreduces hdone

omit [DecidableEq Column] in
/-- A change of rows that succeeds. -/
theorem update_ok {t : Table} {p : Row Column (Data t) → Bool}
    {f : Row Column (Data t) → Row Column (Data t)} (hok : s.update t p f db = .ok db') :
  db' = Function.update db t ((db t).map fun r => if p r then f r else r)
  := by
  rw [update, rewrite] at hok
  by_cases hchecks : ((db t).all fun r => !p r || s.check t (f r)) = true
  · by_cases hdistinct : s.Distinct t ((db t).map fun r => if p r then f r else r)
    · rw [if_pos hchecks, if_pos hdistinct] at hok
      cases hok
      rfl
    · rw [if_pos hchecks, if_neg hdistinct] at hok
      cases hok
  · rw [if_neg hchecks] at hok
    cases hok

omit [DecidableEq Column] in
/-- A change that takes references. -/
theorem reduces_update {t : Table} {p : Row Column (Data t) → Bool}
    {f : Row Column (Data t) → Row Column (Data t)}
    (hf : ∀ r, p r = true → Loses lost t r (f r)) (hok : s.update t p f db = .ok db') :
  Reduces gone lost db db'
  := by
  obtain rfl := update_ok hok
  have hchanged : ∀ r, Loses lost t r (if p r then f r else r) := by
    intro r
    split
    · rename_i hp
      exact hf r hp
    · exact .refl r
  constructor
  · intro t' r' hr'
    by_cases ht : t' = t
    · subst ht
      rw [Function.update_self] at hr'
      obtain ⟨r, hr, rfl⟩ := List.mem_map.mp hr'
      exact ⟨r, hr, hchanged r⟩
    · rw [Function.update_of_ne ht] at hr'
      exact ⟨r', hr', .refl r'⟩
  · intro t' r hr _
    by_cases ht : t' = t
    · subst ht
      rw [Function.update_self]
      exact ⟨_, List.mem_map.mpr ⟨r, hr, rfl⟩, hchanged r⟩
    · rw [Function.update_of_ne ht]
      exact ⟨r, hr, .refl r⟩

omit [DecidableEq Column] [DecidableEq Table] in
/-- Where no row goes, every reference is still to a row that is there. -/
theorem Refers.reduces (h : s.Refers db) (hreduces : Reduces (fun _ _ => False) lost db db') :
  s.Refers db'
  := by
  intro fk hfk r' hr' key href
  obtain ⟨r, hr, hloses⟩ := hreduces.old fk.table r' hr'
  obtain ⟨x, hx, hid⟩ := h fk hfk r hr key (hloses.some href)
  obtain ⟨x', hx', hloses'⟩ := hreduces.kept fk.target x hx not_false
  exact ⟨x', hx', hloses'.id.trans hid⟩

/-- What a statement leaves. -/
theorem reduces_exec {db₀ : Database Table Column Data} {statement : Statement Table Column Data}
    (hcovered : statement.Covered gone lost db₀) (hclosed : s.Closed gone db₀)
    (hreleases : s.Releases gone lost) (hbefore : Reduces gone lost db₀ db)
    (hrefers : s.Refers db) (hok : s.exec statement db = .ok db') :
  Reduces gone lost db db' ∧ s.Refers db' ∧ statement.Done db'
  := by
  cases statement with
  | delete t p =>
      obtain ⟨hfalling, hnamed⟩ := hcovered
      have hreduces : Reduces gone lost (Function.update db t ((db t).filter fun r => !p r)) db' := by
        apply reduces_settle _ _ hreleases hok
        · intro x hx
          obtain ⟨r', hr', rfl⟩ := List.mem_map.mp hx
          obtain ⟨hr', hp⟩ := List.mem_filter.mp hr'
          obtain ⟨r, hr, hloses⟩ := hbefore.old t r' hr'
          rw [hloses.id]
          exact hnamed r hr (hfalling r r' hloses hp)
        · intro fk hfk hcascade r hr
          apply hbefore.closed hclosed fk hfk hcascade r
          by_cases ht : fk.table = t
          · obtain ⟨table, column, target, onDelete⟩ := fk
            obtain rfl : table = t := ht
            simp only [Function.update_self] at hr
            exact List.mem_of_mem_filter hr
          · rwa [Function.update_of_ne ht] at hr
      refine ⟨?_, refers_delete hok hrefers, ?_⟩
      · apply reduces_delete _ (hbefore.closed hclosed) hreleases hok
        intro r' hr' hp
        obtain ⟨r, hr, hloses⟩ := hbefore.old t r' hr'
        rw [hloses.id]
        exact hnamed r hr (hfalling r r' hloses hp)
      · apply hfalling.none hreduces
        intro r hr
        rw [Function.update_self] at hr
        simpa using (List.mem_filter.mp hr).2
  | update t p f =>
      obtain ⟨_, hf⟩ := hcovered
      have hloses : ∀ r, p r = true → Loses lost t r (f r) := fun r hp => (hf r hp).1
      refine ⟨reduces_update hloses hok, hrefers.reduces (reduces_update hloses hok), ?_⟩
      obtain rfl := update_ok hok
      intro r' hr'
      rw [Function.update_self] at hr'
      obtain ⟨r, hr, rfl⟩ := List.mem_map.mp hr'
      split
      · rename_i hp
        exact (hf r hp).2
      · rename_i hp
        exact Bool.eq_false_iff.mpr hp

/-- What statements leave, in turn. -/
theorem reduces_execAll {db₀ : Database Table Column Data}
    {statements : List (Statement Table Column Data)}
    (hcovered : ∀ statement ∈ statements, statement.Covered gone lost db₀)
    (hclosed : s.Closed gone db₀) (hreleases : s.Releases gone lost)
    (hbefore : Reduces gone lost db₀ db) (hrefers : s.Refers db)
    (hok : s.execAll statements db = .ok db') :
  Reduces gone lost db db' ∧ s.Refers db' ∧ ∀ statement ∈ statements, statement.Done db'
  := by
  induction statements generalizing db with
  | nil =>
      cases hok
      exact ⟨.refl _, hrefers, nofun⟩
  | cons statement statements ih =>
      rw [execAll] at hok
      split at hok
      · cases hok
      · rename_i db₁ hfirst
        have hfirst' := hcovered statement List.mem_cons_self
        obtain ⟨hreduces, hrefers₁, hdone⟩ :=
          reduces_exec hfirst' hclosed hreleases hbefore hrefers hfirst
        obtain ⟨hrest, hrefers₂, hdones⟩ :=
          ih (fun st hst => hcovered st (List.mem_cons_of_mem _ hst)) (hbefore.trans hreduces)
            hrefers₁ hok
        refine ⟨hreduces.trans hrest, hrefers₂, fun st hst => ?_⟩
        rcases List.mem_cons.mp hst with rfl | hst
        · exact hdone.reduces hfirst' hrest
        · exact hdones st hst

omit [DecidableEq Column] [DecidableEq Table] in
/-- If what is named is gone, and every reference is to a row that is there, then everything that
goes with it is gone. -/
theorem gone_of_goes {p : (t : Table) → Row Column (Data t) → Bool}
    (hkeys : ∀ t, ((db t).map (·.id)).Nodup) (hreduces : Reduces gone lost db db')
    (hrefers : s.Refers db') (hnamed : ∀ t, ∀ r ∈ db' t, p t r = false)
    (hkeeps : ∀ t r r', Loses lost t r r' → p t r = true → p t r' = true)
    (hcascades : ∀ fk ∈ s.foreignKeys, fk.onDelete = .cascade → ∀ key,
      s.Goes db p fk.target key → ¬ lost fk.table fk.column key)
    {t : Table} {id : Nat} (h : s.Goes db p t id) :
  ∀ r' ∈ db' t, r'.id ≠ id
  := by
  -- a row that is left is one that was there
  have hold : ∀ {t} {r : Row Column (Data t)}, r ∈ db t → ∀ r' ∈ db' t, r'.id = r.id →
      Loses lost t r r' := by
    intro t r hr r' hr' hid
    obtain ⟨r₀, hr₀, hloses⟩ := hreduces.old t r' hr'
    obtain rfl := List.inj_on_of_nodup_map (hkeys t) hr₀ hr (hloses.id.symm.trans hid)
    exact hloses
  induction h with
  | named hr hp =>
      intro r' hr' hid
      have hgone := hnamed _ r' hr'
      rw [hkeeps _ _ r' (hold hr r' hr' hid) hp] at hgone
      cases hgone
  | cascade hfk hcascade hr href hgoes ih =>
      intro r' hr' hid
      rcases (hold hr r' hr' hid).ref _ with hsame | ⟨_, key, href', hlost⟩
      · obtain ⟨x, hx, hxid⟩ := hrefers _ hfk r' hr' _ (hsame.trans href)
        exact ih x hx hxid
      · obtain rfl := Option.some.inj (href.symm.trans href')
        exact hcascades _ hfk hcascade _ hgoes hlost

end Deletions

end Schema

end Relational
