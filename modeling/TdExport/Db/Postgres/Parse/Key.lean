import TdExport.Core.Nesting
import TdExport.Db.Postgres.Parse.Definition

/-!
# Keys and their stretches

A key as a list of characters and keywords `ASC`. The commas outside of the parentheses cut it into
stretches, and a stretch is neat when leaving out keywords gives what `clean_index_column` makes of
it.
-/

namespace TdExport.Postgres

open Core

/-! ### Keys as characters and keywords -/

/-- A word that reads `ASC`. -/
abbrev AscWord := {word : Str // toAsciiUppercase word = "ASC".toList}

/-- A character of a key, or a keyword `ASC` with the blank before it. -/
inductive KeyItem where
  | char (c : Char)
  | asc (word : AscWord)
  deriving DecidableEq

namespace KeyItem

def text : KeyItem → Str
  | .char c => [c]
  | .asc word => ' ' :: word.val

def isAsc : KeyItem → Bool
  | .char _ => false
  | .asc _ => true

end KeyItem

def itemsText (items : List KeyItem) : Str := items.flatMap KeyItem.text

/-- Only a word behind the name or expression can be the keyword. -/
def modifierItems (word : Str) : List KeyItem :=
  if h : toAsciiUppercase word = "ASC".toList then [.asc ⟨word, h⟩]
  else (' ' :: word).map .char

def KeyColumn.items (k : KeyColumn) : List KeyItem :=
  k.key.map .char ++ k.modifiers.flatMap modifierItems

def IndexDef.keyItems (d : IndexDef) : List KeyItem :=
  (", ".toList.map KeyItem.char).intercalate (d.columns.map KeyColumn.items)

/-! ### Parentheses and commas -/

/-- Parentheses, in quotes as well. -/
def parenWeight (c : Char) : ℤ := if c = '(' then 1 else if c = ')' then -1 else 0

def isComma (c : Char) : Bool := c == ','

@[simp] lemma parenWeight_open : parenWeight '(' = 1 := rfl

@[simp] lemma parenWeight_close : parenWeight ')' = -1 := rfl

lemma parenWeight_of_ne {c : Char} (h : c ≠ '(') (h' : c ≠ ')') : parenWeight c = 0 := by
  rw [parenWeight, if_neg h, if_neg h']

def KeyItem.weight : KeyItem → ℤ
  | .char c => parenWeight c
  | .asc _ => 0

def KeyItem.isComma : KeyItem → Bool
  | .char c => Postgres.isComma c
  | .asc _ => false

/-- A stretch of a key begins with exactly one blank. With an opening parenthesis it does not end
with white space; without one it consists of words with single blanks between them, and no word
other than the keyword reads `ASC`. -/
def Neat (stretch : List KeyItem) : Prop :=
  if '(' ∈ itemsText stretch then itemsText stretch = ' ' :: trim (itemsText stretch)
  else
    let words := splitWhitespace (itemsText (stretch.filter fun item => !item.isAsc))
    itemsText (stretch.filter fun item => !item.isAsc) = ' ' :: [' '].intercalate words ∧
      ∀ word ∈ words, toAsciiUppercase word ≠ "ASC".toList

/-! ### The text of a key -/

@[simp] lemma itemsText_nil : itemsText [] = [] := rfl

@[simp] lemma itemsText_cons (item : KeyItem) (items : List KeyItem) :
    itemsText (item :: items) = item.text ++ itemsText items := by
  simp [itemsText]

@[simp] lemma itemsText_append (items items' : List KeyItem) :
    itemsText (items ++ items') = itemsText items ++ itemsText items' := by
  simp [itemsText]

@[simp] lemma itemsText_map_char (s : Str) : itemsText (s.map .char) = s := by
  induction s with
  | nil => rfl
  | cons c s ih => simp [ih, KeyItem.text]

lemma itemsText_modifierItems (word : Str) : itemsText (modifierItems word) = ' ' :: word := by
  unfold modifierItems
  split_ifs with h
  · simp [KeyItem.text]
  · exact itemsText_map_char _

lemma itemsText_items (k : KeyColumn) : itemsText k.items = k.text := by
  have hmodifiers (words : List Str) :
      itemsText (words.flatMap modifierItems) = words.flatMap (' ' :: ·) := by
    induction words with
    | nil => rfl
    | cons word words ih => simp [itemsText_modifierItems, ih]
  rw [KeyColumn.items, itemsText_append, itemsText_map_char, hmodifiers, KeyColumn.text]

lemma itemsText_keyItems (d : IndexDef) : itemsText d.keyItems = d.keyText := by
  rw [IndexDef.keyItems, IndexDef.keyText]
  induction d.columns with
  | nil => rfl
  | cons k columns ih =>
    cases columns with
    | nil => simpa using itemsText_items k
    | cons k' columns =>
      rw [List.map_cons, List.map_cons, List.intercalate_cons_cons, List.map_cons, List.map_cons,
        List.intercalate_cons_cons, itemsText_append, itemsText_append, itemsText_items,
        itemsText_map_char]
      rw [List.map_cons, List.map_cons] at ih
      rw [ih]

/-! ### Cleaning a stretch -/

/-- What becomes of a stretch. -/
def cleaned (stretch : Str) : Str := cleanIndexColumn (trim stretch)

lemma cleaned_of_mem {s : Str} (h : '(' ∈ s) : cleaned s = trim s := by
  rw [cleaned, cleanIndexColumn, if_pos ((mem_trim (by decide)).mpr h)]

lemma cleaned_of_not_mem {s : Str} (h : '(' ∉ s) :
    cleaned s = [' '].intercalate
      ((splitWhitespace s).filter fun word => toAsciiUppercase word ≠ "ASC".toList) := by
  rw [cleaned, cleanIndexColumn, if_neg ((mem_trim (by decide)).not.mpr h), splitWhitespace_trim]

/-- A blank before the stretch does not matter. -/
lemma cleaned_cons_blank (s : Str) : cleaned (' ' :: s) = cleaned s := by
  have htrim : trim (' ' :: s) = trim s := by simp [trim, isWhitespace]
  rw [cleaned, htrim, cleaned]

/-! ### Keywords -/

lemma AscWord.eq_asc (word : AscWord) {c : Char} (hc : c ∈ word.val) :
    c.toUpper = 'A' ∨ c.toUpper = 'S' ∨ c.toUpper = 'C' := by
  have hmem : c.toUpper ∈ "ASC".toList := by
    rw [← word.property]
    exact List.mem_map_of_mem hc
  simpa using hmem

lemma AscWord.isWord (word : AscWord) : IsWord word.val where
  ne_nil := by
    intro hnil
    have := word.property
    simp [hnil] at this
  black := by
    intro c hc
    rw [← isWhitespace_toUpper]
    rcases word.eq_asc hc with h | h | h <;> rw [h] <;> rfl

/-- Text without parentheses and commas. -/
lemma plain_of_not_mem {s : Str} (h : ∀ c ∈ "(),".toList, c ∉ s) : Plain parenWeight isComma s := by
  intro c hc
  have hne {d : Char} (hd : d ∈ "(),".toList) : c ≠ d := fun heq => h d hd (heq ▸ hc)
  exact ⟨parenWeight_of_ne (hne (by simp)) (hne (by simp)),
    beq_eq_false_iff_ne.mpr (hne (by simp))⟩

lemma plain_blank : Plain parenWeight isComma [' '] := plain_of_not_mem (by simp)

lemma AscWord.plain (word : AscWord) : Plain parenWeight isComma (' ' :: word.val) := by
  refine plain_cons.mpr ⟨⟨rfl, rfl⟩, plain_of_not_mem fun c hc hmem => ?_⟩
  have hupper : ∀ c ∈ "(),".toList, c.toUpper ≠ 'A' ∧ c.toUpper ≠ 'S' ∧ c.toUpper ≠ 'C' := by
    simp
  obtain ⟨hne, hne', hne''⟩ := hupper c hc
  rcases word.eq_asc hmem with h | h | h
  · exact hne h
  · exact hne' h
  · exact hne'' h

/-- The keywords have neither parentheses nor commas. -/
lemma renders_text :
    Renders KeyItem.weight KeyItem.isComma KeyItem.text parenWeight isComma := by
  rintro (c | word)
  · exact .inl ⟨c, rfl, rfl, rfl⟩
  · exact .inr ⟨rfl, rfl, word.plain⟩

/-- What may follow a keyword: a blank, a comma or nothing. -/
def Breaks (s : Str) : Prop := ∀ c ∈ s.head?, c = ' ' ∨ c = ','

/-- Every keyword of a key is followed by a blank, a comma or nothing. -/
def Spaced : List KeyItem → Prop
  | [] => True
  | .char _ :: items => Spaced items
  | .asc _ :: items => Breaks (itemsText items) ∧ Spaced items

lemma Breaks.append {s t : Str} (hs : Breaks s) (ht : Breaks t) : Breaks (s ++ t) := by
  cases s with
  | nil => exact ht
  | cons c s => exact hs

lemma Spaced.append {items items' : List KeyItem} (h : Spaced items) (h' : Spaced items')
    (hbreak : Breaks (itemsText items')) : Spaced (items ++ items') := by
  induction items with
  | nil => exact h'
  | cons item items ih =>
    cases item with
    | char c => exact ih h
    | asc word =>
      refine ⟨?_, ih h.2⟩
      show Breaks (itemsText (items ++ items'))
      rw [itemsText_append]
      exact h.1.append hbreak

lemma spaced_map_char_append (s : Str) {items : List KeyItem} :
    Spaced (s.map .char ++ items) ↔ Spaced items := by
  induction s with
  | nil => rfl
  | cons c s ih => exact ih

lemma spaced_map_char (s : Str) : Spaced (s.map .char) := by
  rw [← List.append_nil (s.map KeyItem.char), spaced_map_char_append]
  trivial

lemma breaks_modifiers (words : List Str) : Breaks (itemsText (words.flatMap modifierItems)) := by
  cases words with
  | nil => simp [Breaks]
  | cons word words => simp [Breaks, itemsText_modifierItems]

lemma spaced_items (k : KeyColumn) : Spaced k.items := by
  rw [KeyColumn.items, spaced_map_char_append]
  induction k.modifiers with
  | nil => trivial
  | cons word words ih =>
    rw [List.flatMap_cons]
    apply Spaced.append _ ih (breaks_modifiers words)
    unfold modifierItems
    split_ifs
    · exact ⟨by simp [Breaks], trivial⟩
    · exact spaced_map_char _

lemma spaced_keyItems (d : IndexDef) : Spaced d.keyItems := by
  rw [IndexDef.keyItems]
  induction d.columns with
  | nil => trivial
  | cons k columns ih =>
    cases columns with
    | nil => simpa using spaced_items k
    | cons k' columns =>
      rw [List.map_cons, List.map_cons, List.intercalate_cons_cons, List.append_assoc]
      apply (spaced_items k).append ((spaced_map_char_append _).mpr ih)
      rw [itemsText_append, itemsText_map_char]
      simp [Breaks]

lemma Breaks.start {s t : Str} (h : Breaks t) (hst : s <+: t) : Breaks s := by
  cases s with
  | nil => simp [Breaks]
  | cons c s =>
    obtain ⟨r, rfl⟩ := hst
    exact h

/-- The stretches are spaced as well. -/
lemma Spaced.of_mem_cutTop {items stretch : List KeyItem} {depth : ℤ} (h : Spaced items)
    (hmem : stretch ∈ cutTop KeyItem.weight KeyItem.isComma depth items) : Spaced stretch := by
  induction items generalizing depth stretch with
  | nil =>
    rw [cutTop, List.mem_singleton] at hmem
    rw [hmem]
    trivial
  | cons item items ih =>
    have hitems : Spaced items := by
      cases item with
      | char c => exact h
      | asc word => exact h.2
    rw [cutTop] at hmem
    split_ifs at hmem
    · rcases List.mem_cons.mp hmem with rfl | hmem
      · trivial
      · exact ih hitems hmem
    · obtain ⟨first, rest, hcut⟩ := List.exists_cons_of_ne_nil
        (cutTop_ne_nil KeyItem.weight KeyItem.isComma (depth + item.weight) items)
      rw [hcut, List.modifyHead_cons] at hmem
      have hfirst : Spaced first := ih hitems (hcut ▸ List.mem_cons_self)
      rcases List.mem_cons.mp hmem with rfl | hmem
      · cases item with
        | char c => exact hfirst
        | asc word =>
          obtain ⟨after, rfl⟩ := prefix_of_cutTop_eq hcut
          rw [Spaced, itemsText_append] at h
          exact ⟨h.1.start (List.prefix_append _ _), hfirst⟩
      · exact ih hitems (hcut ▸ List.mem_cons_of_mem _ hmem)

/-- What follows a keyword is still a break when keywords are left out. -/
lemma Breaks.thins {items kept : List KeyItem} (h : Thins KeyItem.isAsc items kept)
    (hspaced : Spaced items) (hbreak : Breaks (itemsText items)) : Breaks (itemsText kept) := by
  induction h with
  | nil => exact hbreak
  | keep item _ _ =>
    cases item <;> exact hbreak
  | @drop item _ _ hasc _ ih =>
    cases item with
    | char c => cases hasc
    | asc word => exact ih hspaced.2 hspaced.1

lemma Spaced.thins {items kept : List KeyItem} (h : Thins KeyItem.isAsc items kept)
    (hspaced : Spaced items) : Spaced kept := by
  induction h with
  | nil => trivial
  | keep item h ih =>
    cases item with
    | char c => exact ih hspaced
    | asc word => exact ⟨.thins h hspaced.2 hspaced.1, ih hspaced.2⟩
  | @drop item _ _ hasc _ ih =>
    cases item with
    | char c => cases hasc
    | asc word => exact ih hspaced.2

lemma mem_itemsText_of_thins {items kept : List KeyItem} (h : Thins KeyItem.isAsc items kept)
    {c : Char} (hc : c ∈ itemsText kept) : c ∈ itemsText items := by
  induction h with
  | nil => exact hc
  | keep item _ ih =>
    rw [itemsText_cons, List.mem_append] at hc ⊢
    exact hc.imp_right ih
  | drop _ _ ih =>
    rw [itemsText_cons, List.mem_append]
    exact .inr (ih hc)

/-! ### The words of a stretch -/

lemma isWhitespace_head? {s : Str} (h : Breaks s) (hcomma : ',' ∉ s) :
    ∀ c ∈ s.head?, isWhitespace c = true := by
  intro c hc
  rcases h c hc with rfl | rfl
  · rfl
  · exact absurd (List.mem_of_mem_head? hc) hcomma

/-- A keyword is a word of its own. -/
lemma splitWhitespace_asc (s : Str) (word : AscWord) {items : List KeyItem}
    (h : Spaced (.asc word :: items)) (hcomma : ',' ∉ itemsText items) :
    splitWhitespace (s ++ itemsText (.asc word :: items)) =
      splitWhitespace s ++ word.val :: splitWhitespace (itemsText items) := by
  rw [itemsText_cons, KeyItem.text, List.cons_append, splitWhitespace_append_cons (by decide),
    word.isWord.splitWhitespace_append (isWhitespace_head? h.1 hcomma)]

lemma mem_splitWhitespace_of_asc {word : AscWord} {items : List KeyItem} (h : Spaced items)
    (hcomma : ',' ∉ itemsText items) (hmem : .asc word ∈ items) :
    word.val ∈ splitWhitespace (itemsText items) := by
  obtain ⟨before, after, rfl⟩ := List.append_of_mem hmem
  have hafter : Spaced (.asc word :: after) := by
    clear hcomma hmem
    induction before with
    | nil => exact h
    | cons item before ih =>
      cases item with
      | char c => exact ih h
      | asc _ => exact ih h.2
  rw [itemsText_append, splitWhitespace_asc _ word hafter]
  · simp
  · intro hc
    exact hcomma (by simp [hc])

/-- Leaving out the keywords leaves out words that read `ASC`. -/
lemma filter_splitWhitespace (s : Str) {items : List KeyItem} (h : Spaced items)
    (hcomma : ',' ∉ itemsText items) :
    (splitWhitespace (s ++ itemsText items)).filter
        (fun word => toAsciiUppercase word ≠ "ASC".toList) =
      (splitWhitespace (s ++ itemsText (items.filter fun item => !item.isAsc))).filter
        fun word => toAsciiUppercase word ≠ "ASC".toList := by
  induction items generalizing s with
  | nil => rfl
  | cons item items ih =>
    have hrest : ',' ∉ itemsText items := fun hc => hcomma (by simp [hc])
    cases item with
    | char c =>
      have ih := ih (s ++ [c]) h hrest
      simpa [KeyItem.isAsc, KeyItem.text] using ih
    | asc word =>
      have hkept := thins_filter KeyItem.isAsc items
      have hhead : ∀ c ∈ (itemsText (items.filter fun item => !item.isAsc)).head?,
          isWhitespace c = true :=
        isWhitespace_head? (.thins hkept h.2 h.1) fun hc => hrest (mem_itemsText_of_thins hkept hc)
      have ih := ih [] h.2 hrest
      rw [List.nil_append, List.nil_append] at ih
      rw [splitWhitespace_asc s word h hrest, List.filter_append,
        List.filter_cons_of_neg (by simp [word.property]), ih,
        List.filter_cons_of_neg (by simp [KeyItem.isAsc]),
        splitWhitespace_append_of_head? s hhead, List.filter_append]

/-! ### Neat stretches -/

/-- The number of characters that are not white space. -/
def blackCount (s : Str) : ℕ := s.countP (!isWhitespace ·)

lemma blackCount_cons_trim (s : Str) : blackCount (' ' :: trim s) = blackCount s := by
  rw [blackCount, List.countP_cons_of_neg (by simp [isWhitespace])]
  exact countP_trim (fun c hc => by rw [hc, Bool.not_true]) s

/-- A keyword that is left out is missed. -/
lemma eq_or_blackCount_lt_of_thins {items kept : List KeyItem}
    (h : Thins KeyItem.isAsc items kept) :
    kept = items ∨ blackCount (itemsText kept) < blackCount (itemsText items) := by
  induction h with
  | nil => exact .inl rfl
  | keep item _ ih =>
    refine ih.imp (congrArg _) fun hlt => ?_
    simpa [blackCount] using hlt
  | @drop item items kept hasc _ ih =>
    cases item with
    | char c => cases hasc
    | asc word =>
      have hword : 0 < word.val.countP (!isWhitespace ·) := by
        obtain ⟨c, hc⟩ := List.exists_mem_of_ne_nil _ word.isWord.ne_nil
        exact List.countP_pos_iff.mpr ⟨c, hc, by simp [word.isWord.black c hc]⟩
      have hle : blackCount (itemsText kept) ≤ blackCount (itemsText items) := by
        rcases ih with rfl | hlt
        · exact le_rfl
        · exact hlt.le
      right
      simp only [blackCount, itemsText_cons, KeyItem.text, List.countP_append,
        List.countP_cons] at hle ⊢
      omega

/-- A stretch is neat exactly when leaving out keywords gives what the code makes of it. -/
lemma neat_iff {stretch : List KeyItem} (hspaced : Spaced stretch)
    (hcomma : '(' ∉ itemsText stretch → ',' ∉ itemsText stretch) :
    Neat stretch ↔ ∃ kept, Thins KeyItem.isAsc stretch kept ∧
      itemsText kept = ' ' :: cleaned (itemsText stretch) := by
  unfold Neat
  split_ifs with hopen
  · rw [cleaned_of_mem hopen]
    constructor
    · intro h
      exact ⟨stretch, .refl _ _, h⟩
    · rintro ⟨kept, hkept, htext⟩
      rcases eq_or_blackCount_lt_of_thins hkept with rfl | hlt
      · exact htext
      · rw [htext, blackCount_cons_trim] at hlt
        exact absurd hlt (lt_irrefl _)
  · have hwords := filter_splitWhitespace [] hspaced (hcomma hopen)
    rw [List.nil_append, List.nil_append] at hwords
    rw [cleaned_of_not_mem hopen]
    constructor
    · rintro ⟨htext, hasc⟩
      refine ⟨_, thins_filter _ _, htext.trans ?_⟩
      rw [hwords]
      congr 2
      exact (List.filter_eq_self.mpr fun word hword => by simpa using hasc word hword).symm
    · rintro ⟨kept, hkept, htext⟩
      have hcut : splitWhitespace (itemsText kept) = (splitWhitespace (itemsText stretch)).filter
          fun word => toAsciiUppercase word ≠ "ASC".toList := by
        rw [htext, splitWhitespace_cons_white (by decide), splitWhitespace_intercalate]
        exact fun word hword => isWord_of_mem_splitWhitespace (List.mem_of_mem_filter hword)
      have hnone : ∀ item ∈ kept, item.isAsc = false := by
        intro item hitem
        cases item with
        | char c => rfl
        | asc word =>
          have hmem := mem_splitWhitespace_of_asc (hspaced.thins hkept)
            (fun hc => hcomma hopen (mem_itemsText_of_thins hkept hc)) hitem
          rw [hcut] at hmem
          simpa [word.property] using List.of_mem_filter hmem
      rw [← hkept.eq_filter hnone, hcut]
      exact ⟨htext, fun word hword => by simpa using List.of_mem_filter hword⟩

end TdExport.Postgres
