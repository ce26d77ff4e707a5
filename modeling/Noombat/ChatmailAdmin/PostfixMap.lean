import Noombat.Attributes

/-!
# Lookup tables of the mail server

The text of a lookup table and the keys that the mail server reads from it.  A line that
starts with `#` is a comment, a line that starts with white space continues the line before
it, and the first word of what results is a key.
-/

namespace Postfix

/-- Whether a character separates words. -/
def isSpace (c : Char) : Bool :=
  [' ', '\t', '\n', '\x0b', '\x0c', '\r'].contains c

/-- Whether a line says nothing: it is a comment, or has no words. -/
def isIdle (l : List Char) : Bool :=
  l.head? == some '#' || l.all isSpace

/-- The lines of a table, each with the lines that continue it; `current` is the line that may
be continued. -/
def logicalLines (current : Option (List Char)) : List (List Char) → List (List Char)
  | [] => current.toList
  | l :: ls =>
      if isIdle l then logicalLines current ls
      else if l.head?.any isSpace then logicalLines (current.map (· ++ l)) ls
      else current.toList ++ logicalLines (some l) ls

/-- The keys of a table. -/
def keys (table : String) : List String :=
  (logicalLines none (Text.splitList (· == '\n') table.toList)).map fun l =>
    String.ofList (l.takeWhile (!isSpace ·))

/-- The text with the given lines. -/
def writeln : List String → String
  | [] => ""
  | l :: ls => l ++ "\n" ++ writeln ls

/-- What may be a word. -/
structure IsWord (s : String) : Prop where
  nonempty : s.toList ≠ []
  solid : ∀ c ∈ s.toList, isSpace c = false

/-! ### The keys of a table that was written -/

theorem splitList_writeln {ls : List String} (hls : ∀ l ∈ ls, '\n' ∉ l.toList) :
  Text.splitList (· == '\n') (writeln ls).toList = ls.map String.toList ++ [[]]
  := by
  induction ls with
  | nil => rfl
  | cons l ls ih =>
      have hl : ∀ c ∈ l.toList, (c == '\n') = false := by
        intro c hc
        rw [beq_eq_false_iff_ne]
        rintro rfl
        exact hls l List.mem_cons_self hc
      have htext : (writeln (l :: ls)).toList = l.toList ++ '\n' :: (writeln ls).toList := by
        simp [writeln, String.toList_append]
      rw [htext, Attributes.splitList_append_of_other hl, Text.splitList,
        ih fun l' hl' => hls l' (List.mem_cons_of_mem l hl')]
      simp

/-- Lines of which none continues another are the logical lines, but for those that say
nothing. -/
theorem logicalLines_of_head {ls : List (List Char)}
    (hls : ∀ l ∈ ls, isIdle l = true ∨ l.head?.any isSpace = false)
    (current : Option (List Char)) :
  logicalLines current ls = current.toList ++ ls.filter (!isIdle ·)
  := by
  induction ls generalizing current with
  | nil => simp [logicalLines]
  | cons l ls ih =>
      have ih := ih fun l' hl' => hls l' (List.mem_cons_of_mem l hl')
      rw [logicalLines]
      split
      · rename_i hidle
        simp [ih, hidle]
      · rename_i hidle
        rcases hls l List.mem_cons_self with hl | hl
        · exact absurd hl hidle
        · simp [ih, hidle, hl]

/-- The line of an entry is a comment, or its key is read from it. -/
theorem entry_line {key rule : String} (hkey : IsWord key) :
  (key ++ " " ++ rule).toList.head? = key.toList.head? ∧
    isIdle (key ++ " " ++ rule).toList = Text.startsWith key "#" ∧
    (key ++ " " ++ rule).toList.head?.any isSpace = false ∧
    (key ++ " " ++ rule).toList.takeWhile (!isSpace ·) = key.toList
  := by
  have hline : (key ++ " " ++ rule).toList = key.toList ++ ' ' :: rule.toList := by
    simp [String.toList_append]
  rw [hline]
  cases hchars : key.toList with
  | nil => exact absurd hchars hkey.nonempty
  | cons c cs =>
      have hsolid : ∀ c' ∈ c :: cs, isSpace c' = false := hchars ▸ hkey.solid
      have hc : isSpace c = false := hsolid c List.mem_cons_self
      have hhash : "#".toList = ['#'] := rfl
      constructor
      · rfl
      constructor
      · rw [Text.startsWith, hchars, hhash]
        simp [isIdle, hc, List.isPrefixOf, eq_comm]
      constructor
      · simp [hc]
      · rw [List.takeWhile_append_of_pos (fun c' hc' => by simp [hsolid c' hc']),
          List.takeWhile_cons_of_neg (by decide), List.append_nil]

theorem IsWord.no_newline {s : String} (h : IsWord s) :
  '\n' ∉ s.toList
  := by
  intro hc
  have hspace := h.solid _ hc
  revert hspace
  decide

/-- The keys of a table with a comment at its top and a rule for each entry are those that do not
start like a comment. -/
theorem keys_writeln {header : String} {rule : String → String} {entries : List String}
    (hheader : Text.startsWith header "#" = true) (hheader' : '\n' ∉ header.toList)
    (hrule : ∀ key ∈ entries, '\n' ∉ (rule key).toList) (hentries : ∀ key ∈ entries, IsWord key) :
  keys (writeln (header :: entries.map fun key => key ++ " " ++ rule key)) =
    entries.filter (!Text.startsWith · "#")
  := by
  have hlines : ∀ l ∈ header :: entries.map fun key => key ++ " " ++ rule key,
      '\n' ∉ l.toList := by
    intro l hl
    rcases List.mem_cons.mp hl with rfl | hl
    · exact hheader'
    · obtain ⟨key, hkey, rfl⟩ := List.mem_map.mp hl
      simp [String.toList_append, (hentries key hkey).no_newline, hrule key hkey]
  have hidle : isIdle header.toList = true := by
    have hhash : "#".toList = ['#'] := rfl
    rw [Text.startsWith, hhash] at hheader
    cases hchars : header.toList with
    | nil => simp [hchars] at hheader
    | cons c cs =>
        rw [hchars] at hheader
        simp only [List.isPrefixOf, Bool.and_true, beq_iff_eq] at hheader
        simp [isIdle, ← hheader]
  rw [keys, splitList_writeln hlines, logicalLines_of_head]
  · rw [List.map_cons, List.cons_append, List.filter_cons_of_neg (by simp [hidle]),
      List.filter_append]
    have hempty : [([] : List Char)].filter (!isIdle ·) = [] := rfl
    rw [hempty, List.append_nil, Option.toList_none, List.nil_append, List.map_map,
      List.filter_map, List.map_map]
    have hfilter : entries.filter ((!isIdle ·) ∘ String.toList ∘
        fun key => key ++ " " ++ rule key) = entries.filter (!Text.startsWith · "#") := by
      apply List.filter_congr
      intro key hkey
      simp only [Function.comp_apply, (entry_line (hentries key hkey)).2.1]
    rw [hfilter]
    conv_rhs => rw [← List.map_id (entries.filter _)]
    apply List.map_congr_left
    intro key hkey
    have hword := hentries key (List.mem_of_mem_filter hkey)
    simp only [Function.comp_apply, (entry_line hword).2.2.2, String.ofList_toList, id]
  · intro l hl
    rcases List.mem_append.mp hl with hl | hl
    · rw [List.map_cons] at hl
      rcases List.mem_cons.mp hl with rfl | hl
      · exact .inl hidle
      · obtain ⟨line, hline, rfl⟩ := List.mem_map.mp hl
        obtain ⟨key, hkey, rfl⟩ := List.mem_map.mp hline
        exact .inr (entry_line (hentries key hkey)).2.2.1
    · rw [List.mem_singleton.mp hl]
      exact .inl rfl

/-! ### What can be a key -/

/-- A line that says something and does not continue another starts with a word. -/
def Starts (l : List Char) : Prop :=
  ∃ c, l.head? = some c ∧ isSpace c = false ∧ c ≠ '#'

theorem starts_of_not_idle {l : List Char} (hidle : ¬ isIdle l = true)
    (hspace : ¬ l.head?.any isSpace = true) :
  Starts l
  := by
  cases l with
  | nil => exact absurd rfl hidle
  | cons c cs =>
      refine ⟨c, rfl, by simpa using hspace, ?_⟩
      rintro rfl
      exact hidle (by simp [isIdle])

theorem starts_of_mem_logicalLines {ls : List (List Char)} {current : Option (List Char)}
    (hcurrent : ∀ l ∈ current, Starts l) {l : List Char} (hl : l ∈ logicalLines current ls) :
  Starts l
  := by
  induction ls generalizing current with
  | nil => exact hcurrent l (Option.mem_toList.mp hl)
  | cons l' ls ih =>
      rw [logicalLines] at hl
      split at hl
      · exact ih hcurrent hl
      · rename_i hidle
        split at hl
        · apply ih _ hl
          intro l₁ hl₁
          obtain ⟨l₂, hl₂, rfl⟩ := Option.map_eq_some_iff.mp hl₁
          obtain ⟨c, hhead, hc⟩ := hcurrent l₂ hl₂
          refine ⟨c, ?_, hc⟩
          rw [List.head?_append, hhead]
          rfl
        · rename_i hspace
          rcases List.mem_append.mp hl with hl | hl
          · exact hcurrent l (Option.mem_toList.mp hl)
          · apply ih _ hl
            rintro l₁ ⟨⟩
            exact starts_of_not_idle hidle hspace

/-- A key is a word that does not start like a comment. -/
theorem isWord_of_mem_keys {table key : String} (h : key ∈ keys table) :
  IsWord key ∧ Text.startsWith key "#" = false
  := by
  obtain ⟨l, hl, rfl⟩ := List.mem_map.mp h
  have hnone : ∀ l ∈ (none : Option (List Char)), Starts l := by
    intro l hl
    cases hl
  obtain ⟨c, hhead, hc, hhash⟩ := starts_of_mem_logicalLines hnone hl
  cases l with
  | nil => cases hhead
  | cons c' cs =>
      obtain rfl := Option.some.inj hhead
      have hchars : (String.ofList ((c' :: cs).takeWhile (!isSpace ·))).toList =
          c' :: cs.takeWhile (!isSpace ·) := by
        rw [String.toList_ofList, List.takeWhile_cons_of_pos (by simp [hc])]
      constructor
      · constructor
        · rw [hchars]
          exact List.cons_ne_nil _ _
        · intro x hx
          rw [String.toList_ofList] at hx
          simpa using List.mem_takeWhile_imp hx
      · have hhash' : "#".toList = ['#'] := rfl
        rw [Text.startsWith, hchars, hhash']
        simp [List.isPrefixOf, Ne.symm hhash]

end Postfix
