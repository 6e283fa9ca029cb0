import TdExport.Export.Filename.Run

/-!
# Names in two runs

A run knows nothing of the names that another run gave. This module says exactly when two runs give
one name to two schemas.
-/

namespace TdExport

open Core

/-! ### Candidates with one name -/

/-- What a number puts behind a name can be read back from the last `~`. -/
lemma append_numberTail_eq_iff {x y : Str} {m n : ℕ} (hm : m ≤ 2 ^ 32) (hn : n ≤ 2 ^ 32) :
    x ++ numberTail m = y ++ numberTail n ↔
      (x = y ∧ m = n) ∨ (n = 0 ∧ y = x ++ numberTail m) ∨ (m = 0 ∧ x = y ++ numberTail n) := by
  constructor
  · intro h
    cases m with
    | zero =>
      rw [numberTail, List.append_nil] at h
      exact .inr (.inr ⟨rfl, h⟩)
    | succ m =>
      cases n with
      | zero =>
        rw [numberTail, List.append_nil] at h
        exact .inr (.inl ⟨rfl, h.symm⟩)
      | succ n =>
        obtain ⟨hxy, hdigits⟩ := append_cons_inj (tilde_not_mem_intStr _)
          (tilde_not_mem_intStr _) h
        have htail : numberTail (m + 1) = numberTail (n + 1) := congrArg (List.cons '~') hdigits
        exact .inl ⟨hxy, numberTail_injOn hm hn htail⟩
  · rintro (⟨rfl, rfl⟩ | ⟨rfl, rfl⟩ | ⟨rfl, rfl⟩)
    · rfl
    · exact (List.append_nil _).symm
    · exact List.append_nil _

variable (hash : Str → UInt64) (source extn : Str)

/-- The ways in which candidate `m` of the schema `a` and candidate `n` of the schema `b` come to
have one file name, or to have one file of foreign keys. -/
inductive Clash (a : Str) (m : ℕ) (b : Str) (n : ℕ) : Prop
  /-- The schemas have one text in file names, and the numbers are equal. -/
  | same : fileText a = fileText b → m = n → Clash a m b n
  /-- The text of `b` is that of `a` with its number. -/
  | left : n = 0 → fileText b = fileText a ++ numberTail m → Clash a m b n
  /-- The text of `a` is that of `b` with its number. -/
  | right : m = 0 → fileText a = fileText b ++ numberTail n → Clash a m b n
  /-- Both names are cut to the same, and their hashes are equal. -/
  | hashed : HashClash hash extn (candidateStem source a m) (candidateStem source b n) →
      Clash a m b n
  /-- The same for the files of foreign keys. -/
  | crossHashed :
      HashClash hash "sql" (crossStem hash source extn a m) (crossStem hash source extn b n) →
      Clash a m b n

variable {hash source extn} {a b : Str} {m n : ℕ}

lemma schemaFilename_eq_iff_fileBase :
    schemaFilename hash (numbered a m) source extn =
        schemaFilename hash (numbered b n) source extn ↔
      fileBase hash extn (candidateStem source a m) =
        fileBase hash extn (candidateStem source b n) := by
  rw [schemaFilename_numbered, schemaFilename_numbered, List.append_left_inj,
    List.append_left_inj]

lemma schemaFilename_eq_iff (hm : m ≤ 2 ^ 32) (hn : n ≤ 2 ^ 32) :
    schemaFilename hash (numbered a m) source extn =
        schemaFilename hash (numbered b n) source extn ↔
      ((fileText a = fileText b ∧ m = n) ∨ (n = 0 ∧ fileText b = fileText a ++ numberTail m) ∨
        (m = 0 ∧ fileText a = fileText b ++ numberTail n)) ∨
      HashClash hash extn (candidateStem source a m) (candidateStem source b n) := by
  rw [schemaFilename_eq_iff_fileBase, fileBase_eq_iff (endsPlain_candidateStem _ _ _)
    (endsPlain_candidateStem _ _ _), ← append_numberTail_eq_iff hm hn, candidateStem,
    candidateStem,
    List.append_left_inj]

lemma crossSchemaFilename_eq_iff :
    crossSchemaFilename hash (schemaFilename hash (numbered a m) source extn) =
        crossSchemaFilename hash (schemaFilename hash (numbered b n) source extn) ↔
      schemaFilename hash (numbered a m) source extn =
        schemaFilename hash (numbered b n) source extn ∨
      HashClash hash "sql" (crossStem hash source extn a m) (crossStem hash source extn b n) := by
  have hstem : crossStem hash source extn a m = crossStem hash source extn b n ↔
      fileBase hash extn (candidateStem source a m) =
        fileBase hash extn (candidateStem source b n) := by
    rw [crossStem, crossStem, List.append_left_inj, List.append_left_inj]
  rw [crossSchemaFilename_eq, crossSchemaFilename_eq, List.append_left_inj, List.append_left_inj,
    fileBase_eq_iff (endsPlain_crossStem _ _ _) (endsPlain_crossStem _ _ _), hstem,
    schemaFilename_eq_iff_fileBase]

/-- Two candidates have different files exactly when they do not clash. -/
lemma ne_and_ne_iff_not_clash (hm : m ≤ 2 ^ 32) (hn : n ≤ 2 ^ 32) :
    (schemaFilename hash (numbered a m) source extn ≠
        schemaFilename hash (numbered b n) source extn ∧
      crossSchemaFilename hash (schemaFilename hash (numbered a m) source extn) ≠
        crossSchemaFilename hash (schemaFilename hash (numbered b n) source extn)) ↔
      ¬ Clash hash source extn a m b n := by
  rw [Ne, Ne, ← not_or, crossSchemaFilename_eq_iff, ← or_assoc, or_self,
    schemaFilename_eq_iff hm hn, not_iff_not]
  constructor
  · rintro (((⟨htext, hnum⟩ | ⟨hn, htext⟩ | ⟨hm, htext⟩) | hclash) | hclash)
    · exact .same htext hnum
    · exact .left hn htext
    · exact .right hm htext
    · exact .hashed hclash
    · exact .crossHashed hclash
  · rintro (⟨htext, hnum⟩ | ⟨hn, htext⟩ | ⟨hm, htext⟩ | hclash | hclash)
    · exact .inl (.inl (.inl ⟨htext, hnum⟩))
    · exact .inl (.inl (.inr (.inl ⟨hn, htext⟩)))
    · exact .inl (.inl (.inr (.inr ⟨hm, htext⟩)))
    · exact .inl (.inr hclash)
    · exact .inr hclash

/-! ### The numbers of a set of schemas -/

section Numbers

/-- `number` gives every schema the first of its candidates that no schema before it has, without
regard to case. -/
structure Numbering (u : CaseTables) (hash : Str → UInt64) (source extn : Str) (schemas : List Str)
    (number : Str → ℕ) : Prop where
  free : ∀ a ∈ schemas, ∀ b ∈ schemas, b < a →
    candidateKey u hash source extn b (number b) ≠ candidateKey u hash source extn a (number a)
  first : ∀ a ∈ schemas, ∀ m < number a, ∃ b ∈ schemas, b < a ∧
    candidateKey u hash source extn b (number b) = candidateKey u hash source extn a m

variable {u : CaseTables} {schemas : List Str} {number : Str → ℕ} {given : List (Str × ℕ)}

/-- No two schemas come at one place. -/
lemma pairwise_given (hnodup : schemas.Nodup)
    (hmap : given.map Prod.fst = schemas.insertionSort (· ≤ ·)) :
    given.Pairwise fun p q => p.1 < q.1 := by
  have hsorted := List.pairwise_insertionSort (· ≤ ·) schemas
  have hdistinct := (List.perm_insertionSort (· ≤ ·) schemas).nodup_iff.mpr hnodup
  have hlt := hsorted.imp₂ (fun a b => lt_of_le_of_ne) hdistinct
  rw [← hmap, List.pairwise_map] at hlt
  exact hlt

lemma exists_mem_given (hmap : given.map Prod.fst = schemas.insertionSort (· ≤ ·))
    (h : a ∈ schemas) : ∃ n, (a, n) ∈ given := by
  have hmem : a ∈ given.map Prod.fst := by rwa [hmap, List.mem_insertionSort]
  obtain ⟨⟨b, n⟩, hp, rfl⟩ := List.mem_map.mp hmem
  exact ⟨n, hp⟩

/-- The schemas before `a` are those that had their turn before it. -/
lemma mem_of_lt {l l' : List (Str × ℕ)} {k : ℕ}
    (hsorted : (l ++ (a, n) :: l').Pairwise fun p q => p.1 < q.1)
    (h : (b, k) ∈ l ++ (a, n) :: l') (hlt : b < a) : (b, k) ∈ l := by
  rcases List.mem_append.mp h with h | h
  · exact h
  · have hle : a ≤ b := by
      rcases List.mem_cons.mp h with heq | h
      · exact le_of_eq (Prod.mk.inj heq).1.symm
      · have htail := (List.pairwise_append.mp hsorted).2.1
        exact (List.rel_of_pairwise_cons htail h).le
    exact absurd hlt hle.not_gt

/-- The run gives the numbers. -/
lemma numbering_of_firstFit (hgiven : FirstFit (candidateKey u hash source extn) ∅ given)
    (hsorted : given.Pairwise fun p q => p.1 < q.1)
    (hmap : given.map Prod.fst = schemas.insertionSort (· ≤ ·))
    (hnumber : ∀ p ∈ given, number p.1 = p.2) : Numbering u hash source extn schemas number := by
  refine ⟨fun a ha b hb hlt heq => ?_, fun a ha m hm => ?_⟩
  · obtain ⟨n, hn⟩ := exists_mem_given hmap ha
    obtain ⟨k, hk⟩ := exists_mem_given hmap hb
    rw [hnumber _ hn, hnumber _ hk] at heq
    have hsame := hgiven.eq_of_key_eq hk hn heq
    exact absurd (congrArg Prod.fst hsame) hlt.ne
  · obtain ⟨n, hn⟩ := exists_mem_given hmap ha
    rw [hnumber _ hn] at hm
    obtain ⟨l, l', rfl⟩ := List.append_of_mem hn
    obtain ⟨hempty, hp⟩ | ⟨p, hp, hkey⟩ := mem_taken.mp (hgiven.firstFree.1 m hm)
    have hmem : p ∈ l ++ (a, n) :: l' := List.mem_append_left _ hp
    refine ⟨p.1, mem_of_mem_given hmap hmem, ?_, by rw [hnumber _ hmem, hkey]⟩
    exact (List.pairwise_append.mp hsorted).2.2 _ hp _ List.mem_cons_self

/-- There is one way to give the numbers. -/
lemma Numbering.eq_of_mem (h : Numbering u hash source extn schemas number)
    (hgiven : FirstFit (candidateKey u hash source extn) ∅ given)
    (hsorted : given.Pairwise fun p q => p.1 < q.1)
    (hmap : given.map Prod.fst = schemas.insertionSort (· ≤ ·)) :
    ∀ p ∈ given, number p.1 = p.2 := by
  have hprefix : ∀ l l', given = l ++ l' → ∀ p ∈ l, number p.1 = p.2 := by
    intro l
    induction l using List.reverseRecOn with
    | nil => exact fun _ _ p hp => absurd hp List.not_mem_nil
    | append_singleton l e ih =>
      obtain ⟨a, n⟩ := e
      intro l' heq
      rw [List.append_assoc, List.singleton_append] at heq
      have hbefore := ih _ heq
      subst heq
      have ha : a ∈ schemas :=
        mem_of_mem_given hmap (List.mem_append_right _ List.mem_cons_self)
      have hfirst : FirstFree (candidateKey u hash source extn a)
          (taken (candidateKey u hash source extn) ∅ l) (number a) := by
        constructor
        · intro m hm
          obtain ⟨b, hb, hlt, hkey⟩ := h.first a ha m hm
          obtain ⟨k, hk⟩ := exists_mem_given hmap hb
          have hk := mem_of_lt hsorted hk hlt
          rw [hbefore _ hk] at hkey
          exact mem_taken.mpr (.inr ⟨_, hk, hkey⟩)
        · intro htaken
          obtain hempty | ⟨p, hp, hkey⟩ := mem_taken.mp htaken
          · exact absurd hempty (Finset.notMem_empty _)
          · have hmem : p ∈ l ++ (a, n) :: l' := List.mem_append_left _ hp
            have hlt := (List.pairwise_append.mp hsorted).2.2 _ hp _ List.mem_cons_self
            rw [← hbefore _ hp] at hkey
            exact h.free a ha p.1 (mem_of_mem_given hmap hmem) hlt hkey
      have hnumber : number a = n := hfirst.unique hgiven.firstFree
      intro p hp
      rcases List.mem_append.mp hp with hp | hp
      · exact hbefore p hp
      · rw [List.mem_singleton.mp hp, hnumber]
  exact hprefix given [] (List.append_nil _).symm

/-- The numbers of the list, as a function. -/
lemma exists_number (hsorted : given.Pairwise fun p q => p.1 < q.1) :
    ∃ number : Str → ℕ, ∀ p ∈ given, number p.1 = p.2 := by
  induction given with
  | nil => exact ⟨fun _ => 0, fun p hp => absurd hp List.not_mem_nil⟩
  | cons e given ih =>
    obtain ⟨hlt, hrest⟩ := List.pairwise_cons.mp hsorted
    obtain ⟨number, hnumber⟩ := ih hrest
    refine ⟨Function.update number e.1 e.2, List.forall_mem_cons.mpr ⟨?_, fun p hp => ?_⟩⟩
    · exact Function.update_self _ _ _
    · rw [Function.update_of_ne (hlt p hp).ne', hnumber p hp]

end Numbers

/-! ### Two runs -/

section Runs

variable (hash) in
/-- No file of one run has the name of a file that another run made for another schema. -/
def NamesApart (names names' : List (Str × Str)) : Prop :=
  ∀ p ∈ names, ∀ q ∈ names', p.1 ≠ q.1 →
    p.2 ≠ q.2 ∧ crossSchemaFilename hash p.2 ≠ crossSchemaFilename hash q.2

/-- No two schemas have one name, without regard to case, when none has a number. -/
def NoConflict (u : CaseTables) (hash : Str → UInt64) (source extn : Str) (schemas : List Str) :
    Prop :=
  ∀ a ∈ schemas, ∀ b ∈ schemas, a ≠ b →
    candidateKey u hash source extn a 0 ≠ candidateKey u hash source extn b 0

variable {u : CaseTables} {o : Overflow} {schemas schemas' : List Str} {turns turns' : ℕ}
  {names names' : List (Str × Str)} {given given' : List (Str × ℕ)}

lemma NoConflict.numbering (h : NoConflict u hash source extn schemas) :
    Numbering u hash source extn schemas fun _ => 0 :=
  ⟨fun a ha b hb hlt => h b hb a ha hlt.ne, fun _ _ m hm => absurd hm m.not_lt_zero⟩

lemma namesApart_namesOf_iff (hlimit : ∀ p ∈ given, p.2 ≤ o.limit)
    (hlimit' : ∀ p ∈ given', p.2 ≤ o.limit) :
    NamesApart hash (namesOf hash source extn given) (namesOf hash source extn given') ↔
      ∀ p ∈ given, ∀ q ∈ given', p.1 ≠ q.1 → ¬ Clash hash source extn p.1 p.2 q.1 q.2 := by
  simp only [NamesApart, namesOf, List.forall_mem_map]
  refine forall₂_congr fun p hp => forall₂_congr fun q hq => forall_congr' fun _ => ?_
  exact ne_and_ne_iff_not_clash ((hlimit p hp).trans o.limit_le) ((hlimit' q hq).trans o.limit_le)

/-- Without numbers two names clash when their texts are equal, or when both are cut. -/
lemma clash_zero_iff : Clash hash source extn a 0 b 0 ↔ fileText a = fileText b ∨
    HashClash hash extn (candidateStem source a 0) (candidateStem source b 0) ∨
    HashClash hash "sql" (crossStem hash source extn a 0) (crossStem hash source extn b 0) := by
  constructor
  · rintro (⟨htext, -⟩ | ⟨-, htext⟩ | ⟨-, htext⟩ | hclash | hclash)
    · exact .inl htext
    · exact .inl (htext.trans (List.append_nil _)).symm
    · exact .inl (htext.trans (List.append_nil _))
    · exact .inr (.inl hclash)
    · exact .inr (.inr hclash)
  · rintro (htext | hclash | hclash)
    · exact .same htext rfl
    · exact .hashed hclash
    · exact .crossHashed hclash

/-- A run over different schemas has numbers. -/
lemma exists_numbering (hnodup : schemas.Nodup)
    (h : schemaFilenames u o hash source extn turns schemas = some names) :
    ∃ number, Numbering u hash source extn schemas number := by
  obtain ⟨given, hgiven, -, hmap, -⟩ := exists_numbers_of_run h
  have hsorted := pairwise_given hnodup hmap
  obtain ⟨number, hnumber⟩ := exists_number hsorted
  exact ⟨number, numbering_of_firstFit hgiven hsorted hmap hnumber⟩

/-- The numbers are those of the candidates that the schemas get. -/
lemma exists_given (hnodup : schemas.Nodup)
    (h : schemaFilenames u o hash source extn turns schemas = some names) {number : Str → ℕ}
    (hnumber : Numbering u hash source extn schemas number) :
    ∃ given, names = namesOf hash source extn given ∧ (∀ p ∈ given, p.2 ≤ o.limit) ∧
      ∀ {P : Str → ℕ → Prop}, (∀ p ∈ given, P p.1 p.2) ↔ ∀ a ∈ schemas, P a (number a) := by
  obtain ⟨given, hgiven, hlimit, hmap, rfl⟩ := exists_numbers_of_run h
  have heq := hnumber.eq_of_mem hgiven (pairwise_given hnodup hmap) hmap
  refine ⟨given, rfl, hlimit, fun {P} => ⟨fun hP a ha => ?_, fun hP p hp => ?_⟩⟩
  · obtain ⟨n, hn⟩ := exists_mem_given hmap ha
    rw [heq _ hn]
    exact hP _ hn
  · rw [← heq p hp]
    exact hP p.1 (mem_of_mem_given hmap hp)

lemma namesApart_iff_of_numbering (hnodup : schemas.Nodup) (hnodup' : schemas'.Nodup)
    (h : schemaFilenames u o hash source extn turns schemas = some names)
    (h' : schemaFilenames u o hash source extn turns' schemas' = some names')
    {number number' : Str → ℕ} (hnumber : Numbering u hash source extn schemas number)
    (hnumber' : Numbering u hash source extn schemas' number') :
    NamesApart hash names names' ↔ ∀ a ∈ schemas, ∀ b ∈ schemas', a ≠ b →
      ¬ Clash hash source extn a (number a) b (number' b) := by
  obtain ⟨given, rfl, hlimit, hall⟩ := exists_given hnodup h hnumber
  obtain ⟨given', rfl, hlimit', hall'⟩ := exists_given hnodup' h' hnumber'
  rw [namesApart_namesOf_iff hlimit hlimit', ← hall (P := fun a m => ∀ b ∈ schemas', a ≠ b →
    ¬ Clash hash source extn a m b (number' b))]
  refine forall₂_congr fun p _ => ?_
  exact hall' (P := fun b n => p.1 ≠ b → ¬ Clash hash source extn p.1 p.2 b n)

/-- Two runs leave each other's files alone exactly when no two of the candidates that different
schemas get clash; and when no schema needs a number, exactly when no two of the schemas have one
text and no two of their names are cut to the same. -/
theorem namesApart_iff (hnodup : schemas.Nodup) (hnodup' : schemas'.Nodup)
    (h : schemaFilenames u o hash source extn turns schemas = some names)
    (h' : schemaFilenames u o hash source extn turns' schemas' = some names') :
    (∃ number, Numbering u hash source extn schemas number) ∧
    (∃ number', Numbering u hash source extn schemas' number') ∧
    (∀ number number', Numbering u hash source extn schemas number →
      Numbering u hash source extn schemas' number' →
      (NamesApart hash names names' ↔ ∀ a ∈ schemas, ∀ b ∈ schemas', a ≠ b →
        ¬ Clash hash source extn a (number a) b (number' b))) ∧
    (NoConflict u hash source extn schemas → NoConflict u hash source extn schemas' →
      (NamesApart hash names names' ↔ ∀ a ∈ schemas, ∀ b ∈ schemas', a ≠ b →
        ¬ (fileText a = fileText b ∨
          HashClash hash extn (candidateStem source a 0) (candidateStem source b 0) ∨
          HashClash hash "sql" (crossStem hash source extn a 0)
            (crossStem hash source extn b 0)))) := by
  refine ⟨exists_numbering hnodup h, exists_numbering hnodup' h',
    fun _ _ => namesApart_iff_of_numbering hnodup hnodup' h h', fun hno hno' => ?_⟩
  rw [namesApart_iff_of_numbering hnodup hnodup' h h' hno.numbering hno'.numbering]
  simp only [clash_zero_iff]

end Runs

/-! ### Two runs that meet -/

lemma run_slash : schemaFilenames .asciiOnly .panics (fun _ => 0) "h" "sql" 1 ["x/y"] =
    some [("x/y".toList, "x_y(h).sql".toList)] := by
  decide +kernel

lemma run_underscore : schemaFilenames .asciiOnly .panics (fun _ => 0) "h" "sql" 1 ["x_y"] =
    some [("x_y".toList, "x_y(h).sql".toList)] := by
  decide +kernel

lemma noConflict_singleton (u : CaseTables) (hash : Str → UInt64) (source extn a : Str) :
    NoConflict u hash source extn [a] := by
  intro b hb c hc hne
  rw [List.mem_singleton.mp hb, List.mem_singleton.mp hc] at hne
  exact absurd rfl hne

theorem namesApart_iff_slash :
    NamesApart (fun _ => 0) [("x/y".toList, "x_y(h).sql".toList)]
        [("x_y".toList, "x_y(h).sql".toList)] ↔
      ∀ a ∈ (["x/y"] : List Str), ∀ b ∈ (["x_y"] : List Str), a ≠ b →
        ¬ (fileText a = fileText b ∨
          HashClash (fun _ => 0) "sql" (candidateStem "h" a 0) (candidateStem "h" b 0) ∨
          HashClash (fun _ => 0) "sql" (crossStem (fun _ => 0) "h" "sql" a 0)
            (crossStem (fun _ => 0) "h" "sql" b 0)) :=
  (namesApart_iff (List.nodup_singleton _) (List.nodup_singleton _) run_slash
    run_underscore).2.2.2 (noConflict_singleton _ _ _ _ _) (noConflict_singleton _ _ _ _ _)

/-- After the schema `x/y`, an export of the schema `x_y` alone writes the same file. -/
theorem reexport_overwrites :
    ∃ names names', schemaFilenames .asciiOnly .panics (fun _ => 0) "h" "sql" 1 ["x/y"] =
        some names ∧
      schemaFilenames .asciiOnly .panics (fun _ => 0) "h" "sql" 1 ["x_y"] = some names' ∧
      ¬ NamesApart (fun _ => 0) names names' := by
  refine ⟨_, _, run_slash, run_underscore, fun h => ?_⟩
  exact (h _ List.mem_cons_self _ List.mem_cons_self (by decide)).1 rfl

end TdExport
