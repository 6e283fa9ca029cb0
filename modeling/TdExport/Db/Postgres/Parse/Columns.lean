import TdExport.Db.Postgres.Parse.Key

/-!
# The key columns of an index

The block of the key, the commas between its columns and the keyword `ASC` are found without regard
to quotation marks. What is stated here is for which keys the columns are read as they are printed.
-/

namespace TdExport.Postgres

open Core

/-! ### What is stated -/

/-- The columns are read as they are printed, except that keywords `ASC` may be missing. -/
def KeepsColumns (d : IndexDef) : Prop :=
  ∃ kept, Thins KeyItem.isAsc d.keyItems kept ∧ (parsePgIndexdef d.text).columns = itemsText kept

/-- The stretches of a key, with a blank before the first. -/
def IndexDef.stretches (d : IndexDef) : List (List KeyItem) :=
  cutTop KeyItem.weight KeyItem.isComma 0 (.char ' ' :: d.keyItems)

/-- The pieces of the text of a key. -/
def IndexDef.pieces (d : IndexDef) : List Str := cutTop parenWeight isComma 0 d.keyText

/-- The parentheses of the key balance, and its stretches between the commas outside of them are
neat, with a blank put before the first. Parentheses and commas in quotes count. -/
structure NeatKey (d : IndexDef) : Prop where
  nested : Nested parenWeight 0 d.keyText
  neat : ∀ stretch ∈ d.stretches, Neat stretch

/-! ### The block of the key -/

/-- One character of the block that does not end it. -/
lemma columnBlockFrom_push {depth depth' : ℤ} {c : Char} {s : Str} (hc : c = ')' → depth ≠ 1)
    (hnext : depth' - 1 = depth - 1 + parenWeight c) (hpos : 1 ≤ depth')
    (h : ∀ inner rest, columnBlockFrom depth' s = some (inner, rest) ↔
      s = inner ++ ')' :: rest ∧ Nested parenWeight (depth' - 1) inner) (inner rest : Str) :
    ((columnBlockFrom depth' s).map fun p => (c :: p.1, p.2)) = some (inner, rest) ↔
      c :: s = inner ++ ')' :: rest ∧ Nested parenWeight (depth - 1) inner := by
  rw [Option.map_eq_some_iff]
  constructor
  · rintro ⟨⟨inner', rest'⟩, hp, heq⟩
    obtain ⟨rfl, rfl⟩ := Prod.mk.inj heq
    obtain ⟨rfl, hnested⟩ := (h _ _).mp hp
    rw [hnext] at hnested
    exact ⟨rfl, by omega, hnested⟩
  · rintro ⟨heq, hnested⟩
    cases inner with
    | nil =>
      obtain ⟨rfl, -⟩ := List.cons.inj heq
      have hzero : depth - 1 = 0 := hnested
      exact absurd (by omega) (hc rfl)
    | cons b inner =>
      obtain ⟨rfl, rfl⟩ := List.cons.inj heq
      have hrest := hnested.2
      rw [← hnext] at hrest
      exact ⟨(inner, rest), (h _ _).mpr ⟨rfl, hrest⟩, rfl⟩

/-- The block ends at the parenthesis that closes the first one, quotation marks or not. -/
lemma columnBlockFrom_eq_some_iff {depth : ℤ} (hdepth : 1 ≤ depth) (s inner rest : Str) :
    columnBlockFrom depth s = some (inner, rest) ↔
      s = inner ++ ')' :: rest ∧ Nested parenWeight (depth - 1) inner := by
  induction s generalizing depth inner rest with
  | nil => simp [columnBlockFrom]
  | cons c s ih =>
    rw [columnBlockFrom]
    split_ifs with hopen hclose hzero
    · subst hopen
      apply columnBlockFrom_push (fun h => absurd h (by decide)) _ (by omega)
        fun _ _ => ih (by omega) _ _
      rw [parenWeight_open]
      omega
    · subst hclose
      constructor
      · intro h
        obtain ⟨rfl, rfl⟩ := Prod.mk.inj (Option.some.inj h)
        exact ⟨rfl, hzero⟩
      · rintro ⟨heq, hnested⟩
        cases inner with
        | nil =>
          obtain ⟨-, rfl⟩ := List.cons.inj heq
          rfl
        | cons b inner =>
          obtain ⟨rfl, -⟩ := List.cons.inj heq
          have hge := hnested.1
          rw [parenWeight_close] at hge
          omega
    · subst hclose
      apply columnBlockFrom_push (fun _ => by omega) _ (by omega) fun _ _ => ih (by omega) _ _
      rw [parenWeight_close]
      omega
    · apply columnBlockFrom_push (fun h => absurd h hclose) _ hdepth fun _ _ => ih hdepth _ _
      rw [parenWeight_of_ne hopen hclose, add_zero]

/-! ### The stretches of the block -/

/-- The code leaves out an empty piece at the end. -/
def withoutEmptyLast (pieces : List Str) : List Str :=
  if pieces.getLast? = some [] then pieces.dropLast else pieces

lemma withoutEmptyLast_cons (p : Str) {pieces : List Str} (h : pieces ≠ []) :
    withoutEmptyLast (p :: pieces) = p :: withoutEmptyLast pieces := by
  rw [withoutEmptyLast, withoutEmptyLast, List.dropLast_cons_of_ne_nil h,
    ← List.singleton_append, List.getLast?_append_of_ne_nil _ h]
  split_ifs <;> rfl

lemma splitTopLevelCommasFrom_eq (depth : ℤ) (current s : Str) :
    splitTopLevelCommasFrom depth current s =
      withoutEmptyLast ((cutTop parenWeight isComma depth s).modifyHead (current ++ ·)) := by
  induction s generalizing depth current with
  | nil => simp [splitTopLevelCommasFrom, cutTop, withoutEmptyLast]
  | cons c s ih =>
    rw [splitTopLevelCommasFrom, cutTop]
    by_cases hcomma : c = ',' ∧ depth = 0
    · obtain ⟨rfl, rfl⟩ := hcomma
      have hne := cutTop_ne_nil parenWeight isComma 0 s
      rw [if_neg (by decide), if_neg (by decide), if_pos ⟨rfl, rfl⟩, if_pos ⟨rfl, rfl⟩, ih,
        List.modifyHead_cons, withoutEmptyLast_cons _ hne, List.append_nil]
      cases cutTop parenWeight isComma 0 s <;> rfl
    · have hpush (depth' : ℤ) (hd : depth' = depth + parenWeight c) :
          splitTopLevelCommasFrom depth' (current ++ [c]) s =
            withoutEmptyLast (((cutTop parenWeight isComma (depth + parenWeight c) s).modifyHead
              (c :: ·)).modifyHead (current ++ ·)) := by
        rw [ih, hd, List.modifyHead_modifyHead]
        congr 2
        funext p
        simp
      have hcut : ¬(isComma c = true ∧ depth = 0) := by simpa [isComma] using hcomma
      rw [if_neg hcut]
      split_ifs with hopen hclose
      · apply hpush
        rw [hopen, parenWeight_open]
      · apply hpush
        rw [hclose, parenWeight_close]
        rfl
      · apply hpush
        rw [parenWeight_of_ne hopen hclose, add_zero]

lemma splitTopLevelCommas_eq (s : Str) :
    splitTopLevelCommas s = withoutEmptyLast (cutTop parenWeight isComma 0 s) := by
  rw [splitTopLevelCommas, splitTopLevelCommasFrom_eq]
  cases h : cutTop parenWeight isComma 0 s <;> simp

lemma extractColumnsFromBlock_eq (inner : Str) :
    extractColumnsFromBlock inner =
      (", ".toList).intercalate
        ((withoutEmptyLast (cutTop parenWeight isComma 0 inner)).map cleaned) := by
  rw [extractColumnsFromBlock, splitTopLevelCommas_eq]
  rfl

/-! ### Putting the stretches together -/

lemma plain_of_white {s : Str} (h : ∀ c ∈ s, isWhitespace c = true) :
    Plain parenWeight isComma s := by
  refine plain_of_not_mem fun c hc hmem => ?_
  have hblack : ∀ c ∈ "(),".toList, isWhitespace c = false := by simp [isWhitespace]
  have hwhite := h c hmem
  rw [hblack c hc] at hwhite
  cases hwhite

/-- A piece without an opening parenthesis has no parenthesis and no comma. -/
lemma plain_of_piece {s : Str} (h : Piece parenWeight isComma 0 s) (hopen : '(' ∉ s) :
    Plain parenWeight isComma s := by
  refine h.plain fun c hc => ?_
  have hne : c ≠ '(' := fun heq => hopen (heq ▸ hc)
  rw [parenWeight, if_neg hne]
  split_ifs <;> omega

/-- What the code makes of a piece can stand between commas again. -/
lemma piece_cleaned {s : Str} (h : Piece parenWeight isComma 0 s) :
    Piece parenWeight isComma 0 (cleaned s) := by
  by_cases hopen : '(' ∈ s
  · obtain ⟨a, b, hs, ha, hb⟩ := exists_append_trim s
    rw [cleaned_of_mem hopen]
    rw [hs] at h
    exact h.of_append (plain_of_white ha) (plain_of_white hb)
  · have hplain := plain_of_piece h hopen
    rw [cleaned_of_not_mem hopen]
    apply Plain.piece
    intro c hc
    rcases mem_of_mem_intercalate hc with rfl | ⟨word, hword, hc⟩
    · exact ⟨rfl, rfl⟩
    · exact hplain c (mem_of_mem_splitWhitespace (List.mem_of_mem_filter hword) hc)

/-- Joining with a comma and a blank is joining texts that begin with a blank. -/
lemma cons_intercalate {pieces : List Str} (h : pieces ≠ []) :
    ' ' :: (", ".toList).intercalate pieces = [','].intercalate (pieces.map (' ' :: ·)) := by
  induction pieces with
  | nil => exact absurd rfl h
  | cons p pieces ih =>
    cases pieces with
    | nil => simp
    | cons q pieces =>
      have ih := ih (by simp)
      rw [List.map_cons, List.map_cons, List.intercalate_cons_cons, List.intercalate_cons_cons,
        ← List.map_cons, ← ih]
      simp

lemma itemsText_intercalate (stretches : List (List KeyItem)) :
    itemsText ([.char ','].intercalate stretches) =
      [','].intercalate (stretches.map itemsText) :=
  flatMap_intercalate KeyItem.text [.char ','] stretches

/-- The stretches of a key with a blank before it, as the code sees them. -/
lemma map_itemsText_cutTop (items : List KeyItem) :
    (cutTop KeyItem.weight KeyItem.isComma 0 (.char ' ' :: items)).map itemsText =
      (cutTop parenWeight isComma 0 (itemsText items)).modifyHead (' ' :: ·) := by
  have htext := renders_text.cutTop_flatMap (d := 0) (.char ' ' :: items)
  exact htext.symm.trans plain_blank.cutTop_append

/-- Cutting what the code makes of the pieces gives the pieces again. -/
lemma cutTop_cleaned {pieces : List Str} (hne : pieces ≠ [])
    (h : ∀ p ∈ pieces, Piece parenWeight isComma 0 p) :
    cutTop parenWeight isComma 0 (' ' :: (", ".toList).intercalate (pieces.map cleaned)) =
      pieces.map fun p => ' ' :: cleaned p := by
  rw [cons_intercalate (by simpa using hne), List.map_map]
  apply cutTop_intercalate rfl (by simpa using hne)
  intro p hp
  obtain ⟨q, hq, rfl⟩ := List.mem_map.mp hp
  exact plain_blank.append_piece (piece_cleaned (h q hq))

/-- What the code makes of all pieces, unless the last one is left out. -/
lemma extractColumnsFromBlock_eq_or (inner : Str) :
    extractColumnsFromBlock inner =
        (", ".toList).intercalate ((cutTop parenWeight isComma 0 inner).map cleaned) ∨
      ∃ p ps, cutTop parenWeight isComma 0 inner = (p :: ps) ++ [[]] ∧
        extractColumnsFromBlock inner = (", ".toList).intercalate ((p :: ps).map cleaned) := by
  rw [extractColumnsFromBlock_eq, withoutEmptyLast]
  split_ifs with hlast
  · obtain ⟨init, hinit⟩ : ∃ init, cutTop parenWeight isComma 0 inner = init ++ [[]] :=
      ⟨_, (List.dropLast_append_getLast? _ hlast).symm⟩
    rw [hinit, List.dropLast_concat]
    cases init with
    | nil => exact .inl rfl
    | cons p ps => exact .inr ⟨p, ps, rfl, rfl⟩
  · exact .inl rfl

/-- A list of answers, one for each element. -/
lemma exists_forall₂_map_eq_iff {α β γ : Type*} {R : α → β → Prop} {f : β → γ} {g : α → γ}
    {l : List α} :
    (∃ l', List.Forall₂ R l l' ∧ l'.map f = l.map g) ↔ ∀ a ∈ l, ∃ b, R a b ∧ f b = g a := by
  induction l with
  | nil => simp
  | cons a l ih =>
    rw [List.forall_mem_cons, ← ih]
    constructor
    · rintro ⟨_, h, hmap⟩
      cases h with
      | cons hb hl =>
        obtain ⟨hab, hrest⟩ := List.cons.inj hmap
        exact ⟨⟨_, hb, hab⟩, _, hl, hrest⟩
    · rintro ⟨⟨b, hb, hab⟩, l', hl, hrest⟩
      refine ⟨b :: l', .cons hb hl, ?_⟩
      rw [List.map_cons, List.map_cons, hab, hrest]

section Stretches

variable {d : IndexDef}

lemma piece_of_mem_pieces (h : Nested parenWeight 0 d.keyText) {p : Str} (hp : p ∈ d.pieces) :
    Piece parenWeight isComma 0 p := by
  have hsep : ∀ c, isComma c = true → parenWeight c = 0 := by
    intro c hc
    rw [beq_iff_eq.mp hc]
    rfl
  obtain ⟨q, qs, hcut, hq, hqs⟩ := h.cutTop hsep
  rw [IndexDef.pieces, hcut] at hp
  rcases List.mem_cons.mp hp with rfl | hp
  · exact hq
  · exact hqs p hp

lemma map_itemsText_stretches (d : IndexDef) :
    d.stretches.map itemsText = d.pieces.modifyHead (' ' :: ·) := by
  rw [IndexDef.stretches, map_itemsText_cutTop, itemsText_keyItems, IndexDef.pieces]

/-- What the code makes of the stretches is what it makes of the pieces. -/
lemma map_cleaned_stretches (d : IndexDef) :
    d.stretches.map (fun s => ' ' :: cleaned (itemsText s)) =
      d.pieces.map fun p => ' ' :: cleaned p := by
  have hmap : d.stretches.map (fun s => ' ' :: cleaned (itemsText s)) =
      (d.stretches.map itemsText).map fun p => ' ' :: cleaned p := by
    rw [List.map_map]
    rfl
  rw [hmap, map_itemsText_stretches]
  cases d.pieces with
  | nil => rfl
  | cons p ps => rw [List.modifyHead_cons, List.map_cons, List.map_cons, cleaned_cons_blank]

lemma neat_iff_of_mem (h : Nested parenWeight 0 d.keyText) {s : List KeyItem}
    (hs : s ∈ d.stretches) :
    Neat s ↔
      ∃ kept, Thins KeyItem.isAsc s kept ∧ itemsText kept = ' ' :: cleaned (itemsText s) := by
  have hspaced : Spaced (.char ' ' :: d.keyItems) := spaced_keyItems d
  refine neat_iff (hspaced.of_mem_cutTop hs) fun hopen hcomma => ?_
  have hpiece : Piece parenWeight isComma 0 (itemsText s) := by
    have hmem : itemsText s ∈ d.pieces.modifyHead (' ' :: ·) := by
      rw [← map_itemsText_stretches]
      exact List.mem_map_of_mem hs
    have hpieces := fun p hp => piece_of_mem_pieces (p := p) h hp
    cases hcut : d.pieces with
    | nil => simp [hcut] at hmem
    | cons p ps =>
      rw [hcut, List.modifyHead_cons] at hmem
      rw [hcut] at hpieces
      rcases List.mem_cons.mp hmem with heq | hmem
      · rw [heq]
        exact plain_blank.append_piece (hpieces p List.mem_cons_self)
      · exact hpieces _ (List.mem_cons_of_mem _ hmem)
  have hfalse := (plain_of_piece hpiece hopen _ hcomma).2
  exact absurd hfalse (by decide)

/-- An answer for each stretch is an answer for the key. -/
lemma exists_thins_of_stretches {kept : List (List KeyItem)}
    (h : List.Forall₂ (Thins KeyItem.isAsc) d.stretches kept)
    (hmap : kept.map itemsText = d.stretches.map fun s => ' ' :: cleaned (itemsText s)) :
    ∃ items, Thins KeyItem.isAsc d.keyItems items ∧
      itemsText items = (", ".toList).intercalate (d.pieces.map cleaned) := by
  have hcomma : ∀ item, KeyItem.isComma item = true → item = .char ',' := by
    rintro (c | word) hc
    · rw [beq_iff_eq.mp hc]
    · cases hc
  have hthins := Thins.intercalate (.char ',') h
  rw [IndexDef.stretches, intercalate_cutTop hcomma] at hthins
  have htext : itemsText ([.char ','].intercalate kept) =
      ' ' :: (", ".toList).intercalate (d.pieces.map cleaned) := by
    rw [itemsText_intercalate, hmap, map_cleaned_stretches, cons_intercalate, List.map_map]
    · rfl
    · simpa [IndexDef.pieces] using cutTop_ne_nil parenWeight isComma 0 d.keyText
  generalize [KeyItem.char ','].intercalate kept = whole at hthins htext
  cases hthins with
  | keep _ hitems => exact ⟨_, hitems, (List.cons.inj htext).2⟩
  | drop hasc _ => cases hasc

/-- When the columns are kept, each stretch has an answer. -/
lemma exists_stretches_of_thins (h : Nested parenWeight 0 d.keyText) {kept : List KeyItem}
    (hkept : Thins KeyItem.isAsc d.keyItems kept)
    (hout : extractColumnsFromBlock d.keyText = itemsText kept) :
    ∃ kept', List.Forall₂ (Thins KeyItem.isAsc) d.stretches kept' ∧
      kept'.map itemsText = d.stretches.map fun s => ' ' :: cleaned (itemsText s) := by
  have hfree : ∀ item, KeyItem.isAsc item = true → item.weight = 0 ∧ item.isComma = false := by
    rintro (c | word) hasc
    · cases hasc
    · exact ⟨rfl, rfl⟩
  have hthins : List.Forall₂ (Thins KeyItem.isAsc) d.stretches _ :=
    (hkept.keep (.char ' ')).cutTop hfree
  refine ⟨_, hthins, ?_⟩
  have hcut : (cutTop KeyItem.weight KeyItem.isComma 0 (.char ' ' :: kept)).map itemsText =
      cutTop parenWeight isComma 0 (' ' :: extractColumnsFromBlock d.keyText) := by
    rw [map_itemsText_cutTop, hout]
    exact plain_blank.cutTop_append.symm
  rcases extractColumnsFromBlock_eq_or d.keyText with hall | ⟨p, ps, hpieces, hall⟩
  · rw [hcut, hall, map_cleaned_stretches]
    exact cutTop_cleaned (cutTop_ne_nil _ _ _ _) fun p hp => piece_of_mem_pieces h hp
  · -- the code has one piece fewer than the key
    exfalso
    have hpiece : ∀ q ∈ p :: ps, Piece parenWeight isComma 0 q := by
      intro q hq
      apply piece_of_mem_pieces h
      rw [IndexDef.pieces, hpieces]
      exact List.mem_append_left _ hq
    have hfewer := congrArg List.length hcut
    rw [hall, cutTop_cleaned (by simp) hpiece, List.length_map, List.length_map,
      ← hthins.length_eq, ← List.length_map itemsText, map_itemsText_stretches,
      List.length_modifyHead, IndexDef.pieces, hpieces] at hfewer
    simp at hfewer

/-- When each stretch has an answer, the code leaves out no piece. -/
lemma extractColumnsFromBlock_of_answers
    (h : ∀ s ∈ d.stretches, ∃ kept, Thins KeyItem.isAsc s kept ∧
      itemsText kept = ' ' :: cleaned (itemsText s)) :
    extractColumnsFromBlock d.keyText = (", ".toList).intercalate (d.pieces.map cleaned) := by
  rcases extractColumnsFromBlock_eq_or d.keyText with hall | ⟨p, ps, hpieces, -⟩
  · exact hall
  · -- an empty last stretch has no blank in front
    exfalso
    have hempty : [] ∈ d.stretches.map itemsText := by
      rw [map_itemsText_stretches, IndexDef.pieces, hpieces]
      simp
    obtain ⟨s, hs, hnil⟩ := List.mem_map.mp hempty
    obtain ⟨kept, hkept, htext⟩ := h s hs
    have hblank : ' ' ∈ itemsText s := mem_itemsText_of_thins hkept (by simp [htext])
    rw [hnil] at hblank
    cases hblank

/-- For a key whose parentheses balance, the columns are kept exactly when all stretches are
neat. -/
lemma exists_thins_iff_neat (h : Nested parenWeight 0 d.keyText) :
    (∃ kept, Thins KeyItem.isAsc d.keyItems kept ∧
        extractColumnsFromBlock d.keyText = itemsText kept) ↔ ∀ s ∈ d.stretches, Neat s := by
  have hiff : (∀ s ∈ d.stretches, Neat s) ↔ ∀ s ∈ d.stretches, ∃ kept,
      Thins KeyItem.isAsc s kept ∧ itemsText kept = ' ' :: cleaned (itemsText s) :=
    forall₂_congr fun s hs => neat_iff_of_mem h hs
  rw [hiff]
  constructor
  · rintro ⟨kept, hkept, hout⟩
    exact exists_forall₂_map_eq_iff.mp (exists_stretches_of_thins h hkept hout)
  · intro hanswers
    obtain ⟨kept, hkept, hmap⟩ := exists_forall₂_map_eq_iff.mpr hanswers
    obtain ⟨items, hitems, htext⟩ := exists_thins_of_stretches hkept hmap
    exact ⟨items, hitems, (extractColumnsFromBlock_of_answers hanswers).trans htext.symm⟩

end Stretches

/-! ### Closing parentheses -/

lemma count_intercalate {s : Str} (hs : ')' ∉ s) (pieces : List Str) :
    (s.intercalate pieces).count ')' = (pieces.map (List.count ')')).sum := by
  induction pieces with
  | nil => rfl
  | cons p pieces ih =>
    cases pieces with
    | nil => simp
    | cons q pieces =>
      rw [List.intercalate_cons_cons, List.count_append, List.count_append, ih,
        List.count_eq_zero_of_not_mem hs, List.map_cons, List.sum_cons]
      rfl

/-- Every closing parenthesis of a piece stays. -/
lemma count_cleaned (s : Str) : (cleaned s).count ')' = s.count ')' := by
  by_cases hopen : '(' ∈ s
  · rw [cleaned_of_mem hopen, count_trim (by decide)]
  · have hasc (words : List Str) :
        ((words.filter fun word => toAsciiUppercase word ≠ "ASC".toList).map
          (List.count ')')).sum = (words.map (List.count ')')).sum := by
      induction words with
      | nil => rfl
      | cons word words ih =>
        by_cases hword : toAsciiUppercase word = "ASC".toList
        · have hcount : word.count ')' = 0 := List.count_eq_zero_of_not_mem fun hmem =>
            absurd ((AscWord.plain ⟨word, hword⟩) ')' (List.mem_cons_of_mem _ hmem)).1 (by decide)
          rw [List.filter_cons_of_neg (by simpa using hword), ih, List.map_cons, List.sum_cons,
            hcount, zero_add]
        · rw [List.filter_cons_of_pos (by simpa using hword), List.map_cons, List.sum_cons, ih,
            List.map_cons, List.sum_cons]
    rw [cleaned_of_not_mem hopen, count_intercalate (by simp), hasc]
    exact sum_count_splitWhitespace (by decide) s

lemma count_extractColumnsFromBlock (inner : Str) :
    (extractColumnsFromBlock inner).count ')' = inner.count ')' := by
  have hcomma : ∀ c, isComma c = true → c = ',' := fun c hc => beq_iff_eq.mp hc
  have hpieces : ((cutTop parenWeight isComma 0 inner).map (List.count ')')).sum =
      inner.count ')' := by
    rw [← count_intercalate (s := [',']) (by decide), intercalate_cutTop hcomma]
  have hcleaned (pieces : List Str) : (pieces.map cleaned).map (List.count ')') =
      pieces.map (List.count ')') := by
    rw [List.map_map]
    exact List.map_congr_left fun p _ => count_cleaned p
  rcases extractColumnsFromBlock_eq_or inner with hall | ⟨p, ps, hcut, hall⟩
  · rw [hall, count_intercalate (by decide), hcleaned, hpieces]
  · rw [hall, count_intercalate (by decide), hcleaned, ← hpieces, hcut, List.map_append,
      List.sum_append]
    simp

lemma count_itemsText_of_thins {items kept : List KeyItem} (h : Thins KeyItem.isAsc items kept) :
    (itemsText kept).count ')' = (itemsText items).count ')' := by
  induction h with
  | nil => rfl
  | keep item _ ih => rw [itemsText_cons, itemsText_cons, List.count_append, List.count_append, ih]
  | @drop item _ _ hasc _ ih =>
    cases item with
    | char c => cases hasc
    | asc word =>
      have hcount : (KeyItem.asc word).text.count ')' = 0 :=
        List.count_eq_zero_of_not_mem fun hmem => absurd (word.plain ')' hmem).1 (by decide)
      rw [itemsText_cons, List.count_append, hcount, ih, zero_add]

/-- A text ends at the same place of its like when there are as many before it. -/
lemma eq_of_append_cons_eq {c : Char} {s s' t t' : Str} (h : s ++ c :: t = s' ++ c :: t')
    (hcount : s.count c = s'.count c) : s = s' := by
  have hnil : ∀ {r u v : Str}, c :: u = r ++ c :: v → r.count c = 0 → r = [] := by
    intro r u v hr hzero
    cases r with
    | nil => rfl
    | cons d r =>
      obtain ⟨rfl, -⟩ := List.cons.inj hr
      exact absurd List.mem_cons_self (List.count_eq_zero.mp hzero)
  rcases List.append_eq_append_iff.mp h with ⟨r, rfl, hr⟩ | ⟨r, rfl, hr⟩
  · rw [List.count_append] at hcount
    rw [hnil hr (by omega), List.append_nil]
  · rw [List.count_append] at hcount
    rw [hnil hr (by omega), List.append_nil]

/-! ### The whole definition -/

section Definition

variable {d : IndexDef}

/-- The block is looked for behind the first `USING`, and so behind the first parenthesis when
`USING` stands before it. -/
lemma findColumnBlock_append {head : Str} (husing : "USING".toList <:+: toAsciiUppercase head)
    (hopen : '(' ∉ head) (s : Str) : findColumnBlock (head ++ '(' :: s) = columnBlockFrom 1 s := by
  obtain ⟨before, after, hupper⟩ := husing
  have hprefix : "USING".toList <+:
      (toAsciiUppercase (head ++ '(' :: s)).drop before.length := by
    rw [toAsciiUppercase_append, ← hupper, List.append_assoc, List.append_assoc, List.drop_left]
    exact List.prefix_append _ _
  obtain ⟨j, hj, hfind⟩ := exists_find_le hprefix
  have hle : j ≤ head.length := by
    have hlen := congrArg List.length hupper
    simp only [List.length_append, toAsciiUppercase, List.length_map] at hlen
    omega
  have hskip : ∀ c ∈ head.drop j, decide (c ≠ '(') = true := by
    intro c hc
    rw [decide_eq_true_eq]
    rintro rfl
    exact hopen (List.mem_of_mem_drop hc)
  have hblock : ((head ++ '(' :: s).drop j).dropWhile (· ≠ '(') = '(' :: s := by
    rw [List.drop_append_of_le_length hle, List.dropWhile_append_of_pos hskip,
      List.dropWhile_cons_of_neg (by simp)]
  simp only [findColumnBlock, hfind, hblock]

lemma findColumnBlock_text (h : '(' ∉ d.before ++ "USING " ++ d.method) :
    findColumnBlock d.text = columnBlockFrom 1 (d.keyText ++ ')' :: d.whereText) := by
  have htext : d.text = (d.before ++ "USING " ++ d.method ++ " ") ++
      '(' :: (d.keyText ++ ')' :: d.whereText) := by
    simp [IndexDef.text]
  have husing : "USING".toList <:+: toAsciiUppercase (d.before ++ "USING " ++ d.method ++ " ") := by
    refine ⟨toAsciiUppercase d.before, ' ' :: toAsciiUppercase (d.method ++ " "), ?_⟩
    have hcase : toAsciiUppercase "USING " = "USING".toList ++ [' '] := by simp [toAsciiUppercase]
    simp only [toAsciiUppercase_append, hcase, List.append_assoc, List.singleton_append]
  have hopen : '(' ∉ d.before ++ "USING " ++ d.method ++ " " := by
    rw [List.mem_append]
    exact not_or.mpr ⟨h, by simp⟩
  rw [htext]
  exact findColumnBlock_append husing hopen _

lemma isUnique_parsePgIndexdef (indexdef : Str) :
    (parsePgIndexdef indexdef).isUnique =
      "CREATE UNIQUE INDEX".toList.isPrefixOf (toAsciiUppercase indexdef) := by
  rw [parsePgIndexdef]
  cases findColumnBlock indexdef <;> rfl

lemma columns_parsePgIndexdef (indexdef : Str) :
    (parsePgIndexdef indexdef).columns =
      match findColumnBlock indexdef with
      | some (inner, _) => extractColumnsFromBlock inner
      | none => [] := by
  rw [parsePgIndexdef]
  cases findColumnBlock indexdef <;> rfl

lemma isUnique_text (d : IndexDef) : (parsePgIndexdef d.text).isUnique = d.unique := by
  have hstart {start : Str} (hupper : toAsciiUppercase start = start)
      (hbefore : ∃ rest, d.before = start ++ rest) : start <+: toAsciiUppercase d.text := by
    obtain ⟨rest, hrest⟩ := hbefore
    rw [IndexDef.text, hrest, List.append_assoc, List.append_assoc, List.append_assoc,
      List.append_assoc, List.append_assoc, List.append_assoc, toAsciiUppercase_append, hupper]
    exact List.prefix_append _ _
  have hbefore : ∃ rest, d.before =
      (if d.unique then "CREATE UNIQUE INDEX".toList else "CREATE INDEX".toList) ++ rest := by
    refine ⟨" " ++ d.name ++ " ON " ++ (if d.only then "ONLY ".toList else []) ++
      d.relation ++ " ", ?_⟩
    unfold IndexDef.before
    generalize (if d.only then "ONLY ".toList else []) = only
    cases d.unique <;> simp
  rw [isUnique_parsePgIndexdef]
  cases hunique : d.unique with
  | true =>
    rw [hunique, if_pos rfl] at hbefore
    exact List.isPrefixOf_iff_prefix.mpr (hstart (by simp [toAsciiUppercase]) hbefore)
  | false =>
    rw [hunique, if_neg Bool.false_ne_true] at hbefore
    obtain ⟨rest, hrest⟩ := hstart (by simp [toAsciiUppercase]) hbefore
    rw [← hrest, ← Bool.not_eq_true, List.isPrefixOf_iff_prefix]
    simp

/-- With balanced parentheses the block is the key. -/
lemma columns_text (h : '(' ∉ d.before ++ "USING " ++ d.method)
    (hn : Nested parenWeight 0 d.keyText) :
    (parsePgIndexdef d.text).columns = extractColumnsFromBlock d.keyText := by
  have hfound := (columnBlockFrom_eq_some_iff le_rfl _ d.keyText d.whereText).mpr ⟨rfl, hn⟩
  rw [columns_parsePgIndexdef, findColumnBlock_text h, hfound]

lemma nested_keyText_iff (d : IndexDef) :
    Nested parenWeight 0 d.keyText ↔ Nested KeyItem.weight 0 d.keyItems := by
  rw [← itemsText_keyItems]
  exact renders_text.nested_flatMap le_rfl

/-- When the columns are kept, so are the parentheses, and the block that is found is the key. -/
lemma nested_of_keepsColumns (h : '(' ∉ d.before ++ "USING " ++ d.method)
    (hkeeps : KeepsColumns d) : Nested parenWeight 0 d.keyText := by
  have hasc : ∀ item, KeyItem.isAsc item = true → item.weight = 0 := by
    rintro (c | word) hasc
    · cases hasc
    · rfl
  obtain ⟨kept, hkept, hcolumns⟩ := hkeeps
  rw [columns_parsePgIndexdef, findColumnBlock_text h] at hcolumns
  cases hfound : columnBlockFrom 1 (d.keyText ++ ')' :: d.whereText) with
  | none =>
    rw [hfound] at hcolumns
    have hnil : kept = [] := by
      cases kept with
      | nil => rfl
      | cons item kept => cases item <;> simp [KeyItem.text] at hcolumns
    rw [nested_keyText_iff, hkept.nested hasc le_rfl, hnil]
    rfl
  | some block =>
    obtain ⟨inner, rest⟩ := block
    rw [hfound] at hcolumns
    obtain ⟨htext, hn⟩ := (columnBlockFrom_eq_some_iff le_rfl _ inner rest).mp hfound
    have hcount : d.keyText.count ')' = inner.count ')' := by
      rw [← itemsText_keyItems, ← count_itemsText_of_thins hkept, ← hcolumns,
        count_extractColumnsFromBlock]
    rw [eq_of_append_cons_eq htext hcount]
    exact hn

/-- The columns of an index are read as they are printed exactly when its key is neat; whether it
is unique is always read. -/
theorem parsePgIndexdef_columns_iff (d : IndexDef)
    (h : '(' ∉ d.before ++ "USING " ++ d.method) :
    (parsePgIndexdef d.text).isUnique = d.unique ∧ (KeepsColumns d ↔ NeatKey d) := by
  refine ⟨isUnique_text d, ?_, ?_⟩
  · intro hkeeps
    have hn := nested_of_keepsColumns h hkeeps
    rw [KeepsColumns, columns_text h hn] at hkeeps
    exact ⟨hn, (exists_thins_iff_neat hn).mp hkeeps⟩
  · rintro ⟨hn, hneat⟩
    rw [KeepsColumns, columns_text h hn]
    exact (exists_thins_iff_neat hn).mpr hneat

end Definition

/-- An index on the columns `"a,b"` and `c`. -/
def commaIndex : IndexDef where
  unique := false
  name := "i"
  only := false
  relation := "t"
  method := "btree"
  columns := [⟨"\"a,b\"", []⟩, ⟨"c", ["DESC"]⟩]
  predicate := some "c > 0"

theorem parsePgIndexdef_columns_iff_commaIndex :
    '(' ∉ commaIndex.before ++ "USING " ++ commaIndex.method ∧
      ((parsePgIndexdef commaIndex.text).isUnique = commaIndex.unique ∧
        (KeepsColumns commaIndex ↔ NeatKey commaIndex)) :=
  have hhead : '(' ∉ commaIndex.before ++ "USING " ++ commaIndex.method := by decide +kernel
  ⟨hhead, parsePgIndexdef_columns_iff commaIndex hhead⟩

/-- The comma in quotes separates columns, and a blank is put behind it. -/
theorem not_keepsColumns_commaIndex :
    '(' ∉ commaIndex.before ++ "USING " ++ commaIndex.method ∧ ¬ KeepsColumns commaIndex := by
  refine ⟨by decide +kernel, ?_⟩
  rintro ⟨kept, hkept, hcolumns⟩
  have hnone : ∀ item ∈ commaIndex.keyItems, item.isAsc = false := by decide +kernel
  rw [hkept.eq_of_forall hnone] at hcolumns
  revert hcolumns
  decide +kernel

end TdExport.Postgres
