import TdExport.Core.Fallible
import TdExport.Export.Filename.Text

/-!
# The names of a run

A run gives every schema the first of its candidates that no schema before it has. The names differ,
also without regard to case, and so do the names of the files of foreign keys.
-/

namespace TdExport

open Core

section

variable (u : CaseTables) (o : Overflow) (hash : Str → UInt64) (source extn : Str)

/-- The lower-case name of candidate `n` of a schema. -/
def candidateKey (schema : Str) (n : ℕ) : Str :=
  u.toLowercase (schemaFilename hash (numbered schema n) source extn)

/-- The names that go with numbers of candidates. -/
def namesOf (given : List (Str × ℕ)) : List (Str × Str) :=
  given.map fun p => (p.1, schemaFilename hash (numbered p.1 p.2) source extn)

/-- The searches that find them. -/
def searchesOf (given : List (Str × ℕ)) : List (Str × Str × ℤ) :=
  given.map fun p => (p.1, schemaFilename hash (numbered p.1 p.2) source extn, counter p.2)

variable {u o hash source extn} {turns n : ℕ} {schema name : Str} {z : ℤ} {schemas : List Str}
  {used : Finset Str} {names : List (Str × Str)} {searches : List (Str × Str × ℤ)}
  {given : List (Str × ℕ)}

lemma map_searchesOf (given : List (Str × ℕ)) :
    (searchesOf hash source extn given).map (fun p => (p.1, p.2.1)) =
      namesOf hash source extn given := by
  simp only [searchesOf, namesOf, List.map_map, Function.comp_def]

@[simp] lemma map_fst_namesOf (given : List (Str × ℕ)) :
    (namesOf hash source extn given).map Prod.fst = given.map Prod.fst := by
  simp only [namesOf, List.map_map, Function.comp_def]

/-! ### The loops as first fit -/

lemma candidateOf_schemaFilename (k : ℕ) :
    candidateOf (fun n => schemaFilename hash (schema ++ "~" ++ intStr n) source extn)
      (schemaFilename hash schema source extn) k =
        schemaFilename hash (numbered schema k) source extn := by
  cases k with
  | zero => rw [candidateOf, numbered, numberTail, List.append_nil]
  | succ k =>
    have htail : schema ++ "~" ++ intStr (counter k) = numbered schema (k + 1) :=
      List.append_assoc _ _ _
    rw [candidateOf, htail]

lemma freeName_eq_some_iff :
    freeName u o hash source extn turns schema used = some (name, z) ↔
      ∃ n ≤ turns, n ≤ o.limit ∧ FirstFree (candidateKey u hash source extn schema) used n ∧
        name = schemaFilename hash (numbered schema n) source extn ∧ z = counter n := by
  rw [freeName, Overflow.count_named_eq_some_iff]
  simp only [candidateOf_schemaFilename, FirstFree, Reached, candidateKey, and_assoc]

lemma assignNames_cons_eq_some_iff :
    assignNames u o hash source extn turns used (schema :: schemas) = some searches ↔
      ∃ name z searches', freeName u o hash source extn turns schema used = some (name, z) ∧
        assignNames u o hash source extn turns (insert (u.toLowercase name) used) schemas =
          some searches' ∧ searches = (schema, name, z) :: searches' := by
  rw [assignNames]
  simp only [Option.bind_eq_bind, Option.bind_eq_some_iff, Option.pure_def, Option.some_inj,
    Prod.exists]
  constructor
  · rintro ⟨name, z, hname, searches', hsearches', rfl⟩
    exact ⟨name, z, searches', hname, hsearches', rfl⟩
  · rintro ⟨name, z, searches', hname, hsearches', rfl⟩
    exact ⟨name, z, hname, searches', hsearches', rfl⟩

/-- The run gives every schema the first of its candidates that is free. -/
theorem assignNames_eq_some_iff :
    assignNames u o hash source extn turns used schemas = some searches ↔
      ∃ given, FirstFit (candidateKey u hash source extn) used given ∧
        (∀ p ∈ given, p.2 ≤ turns ∧ p.2 ≤ o.limit) ∧ given.map Prod.fst = schemas ∧
        searches = searchesOf hash source extn given := by
  induction schemas generalizing used searches with
  | nil =>
    constructor
    · intro h
      cases h
      exact ⟨[], .nil used, fun p hp => absurd hp List.not_mem_nil, rfl, rfl⟩
    · rintro ⟨given, -, -, hmap, rfl⟩
      rw [List.map_eq_nil_iff.mp hmap]
      rfl
  | cons schema schemas ih =>
    rw [assignNames_cons_eq_some_iff]
    simp only [ih, freeName_eq_some_iff]
    constructor
    · rintro ⟨_, _, _, ⟨n, hn, hlimit, hfree, rfl, rfl⟩, ⟨given, hgiven, hle, hmap, rfl⟩, rfl⟩
      refine ⟨(schema, n) :: given, .cons hfree hgiven, ?_, by rw [List.map_cons, hmap], rfl⟩
      exact List.forall_mem_cons.mpr ⟨⟨hn, hlimit⟩, hle⟩
    · rintro ⟨_ | ⟨⟨a, n⟩, given⟩, hgiven, hle, hmap, rfl⟩
      · cases hmap
      · obtain ⟨rfl, hmap'⟩ := List.cons.inj hmap
        obtain _ | ⟨hfree, hrest⟩ := hgiven
        obtain ⟨⟨hn, hlimit⟩, hle'⟩ := List.forall_mem_cons.mp hle
        exact ⟨_, _, _, ⟨n, hn, hlimit, hfree, rfl, rfl⟩, ⟨given, hrest, hle', hmap', rfl⟩, rfl⟩

/-- With enough turns the loops find the names of a first fit. -/
lemma exists_assignNames (h : FirstFit (candidateKey u hash source extn) used given)
    (hlimit : ∀ p ∈ given, p.2 ≤ o.limit) :
    ∃ turns, assignNames u o hash source extn turns used (given.map Prod.fst) =
      some (searchesOf hash source extn given) := by
  refine ⟨(given.map Prod.snd).sum, assignNames_eq_some_iff.mpr ⟨given, h, ?_, rfl, rfl⟩⟩
  exact fun p hp => ⟨List.le_sum_of_mem (List.mem_map_of_mem hp), hlimit p hp⟩

/-! ### The turn of a schema -/

variable (u o hash source extn)

/-- When the turn of `schema` comes in the run over `schemas`, the names of `searches` have been
given. -/
def TurnOf (schemas : List Str) (schema : Str) (searches : List (Str × Str × ℤ)) : Prop :=
  ∃ before after turns, schemas.insertionSort (· ≤ ·) = before ++ schema :: after ∧
    assignNames u o hash source extn turns ∅ before = some searches

/-- Candidate `n` of a schema is one of the names that are given, up to case. -/
def IsTaken (searches : List (Str × Str × ℤ)) (schema : Str) (n : ℕ) : Prop :=
  u.toLowercase (schemaFilename hash (numbered schema n) source extn) ∈
    searches.map fun p => u.toLowercase p.2.1

/-- The stems that a run tries, with the `_` of a device name. -/
inductive TriedStem (schemas : List Str) : Str → Prop
  | of_turn {schema : Str} {searches : List (Str × Str × ℤ)} {n : ℕ} :
      TurnOf u o hash source extn schemas schema searches → n ≤ o.limit →
      (∀ m < n, IsTaken u hash source extn searches schema m) →
      TriedStem schemas (protectDevice (sanitizeFilenamePart (numbered schema n) ++ "(" ++
        sanitizeFilenamePart source ++ ")"))

variable {u o hash source extn}

lemma isTaken_searchesOf_iff :
    IsTaken u hash source extn (searchesOf hash source extn given) schema n ↔
      candidateKey u hash source extn schema n ∈
        taken (candidateKey u hash source extn) ∅ given := by
  simp [mem_taken, searchesOf, candidateKey, IsTaken]

/-- The stem is tried when the search comes to it. -/
lemma triedStem_of_reached {a : Str} {l : List Str}
    (hgiven : FirstFit (candidateKey u hash source extn) ∅ given)
    (hlimit : ∀ p ∈ given, p.2 ≤ o.limit) (hn : n ≤ o.limit)
    (hsorted : schemas.insertionSort (· ≤ ·) = given.map Prod.fst ++ a :: l)
    (hreached : Reached (candidateKey u hash source extn a)
      (taken (candidateKey u hash source extn) ∅ given) n) :
    TriedStem u o hash source extn schemas (candidateStem source a n) := by
  obtain ⟨turns, hnames⟩ := exists_assignNames hgiven hlimit
  rw [← protectDevice_numbered]
  refine .of_turn ⟨_, l, turns, hsorted, hnames⟩ hn fun m hm => ?_
  exact isTaken_searchesOf_iff.mpr (hreached m hm)

section Apart

variable {u : FileTables} {m : ℕ}

lemma toLowercase_candidateStem (schema : Str) (n : ℕ) :
    u.toLowercase (candidateStem source schema n) =
      u.toLowercase (fileText schema) ++ numberTail n ++
        '(' :: u.toLowercase (sanitizeFilenamePart source ++ ")") := by
  have hcons : candidateStem source schema n =
      fileText schema ++ numberTail n ++ '(' :: (sanitizeFilenamePart source ++ ")") := by
    rw [candidateStem, sourceText]
    simp only [List.append_assoc]
    rfl
  rw [hcons, FileTables.toLowercase_append_cons (by decide)]
  congr 1
  cases n with
  | zero => rw [numberTail, List.append_nil, List.append_nil]
  | succ n =>
    have htail : u.toLowercase (intStr (counter n)) = intStr (counter n) :=
      u.lowerFrom_eq_self [] fun c hc => toLower_of_mem_numberText (List.mem_cons_of_mem _ hc)
    rw [numberTail, numberText, FileTables.toLowercase_append_cons (by decide), htail]

lemma toLowercase_candidateStem_inj (hm : m ≤ 2 ^ 32) (hn : n ≤ 2 ^ 32)
    (h : u.toLowercase (candidateStem source schema m) =
      u.toLowercase (candidateStem source schema n)) : m = n := by
  rw [toLowercase_candidateStem, toLowercase_candidateStem] at h
  exact numberTail_injOn hm hn (List.append_cancel_left (List.append_cancel_right h))

/-- Names that are equal up to case are so before their extension. -/
lemma toLowercase_fileBase_of_candidateKey {a b : Str}
    (h : candidateKey u.toCaseTables hash source extn a m =
      candidateKey u.toCaseTables hash source extn b n) :
    u.toLowercase (fileBase hash extn (candidateStem source a m)) =
      u.toLowercase (fileBase hash extn (candidateStem source b n)) := by
  rw [candidateKey, candidateKey, schemaFilename_numbered, schemaFilename_numbered,
    List.append_assoc, List.append_assoc] at h
  exact (guarded_fileBase (guarded_candidateStem _ _ _)).toLowercase_eq
    (guarded_fileBase (guarded_candidateStem _ _ _)) h

/-- When no two of the stems that are cut have one hash, the candidates of a schema have different
names. -/
lemma number_eq_of_candidateKey_eq {cut : Set Str} (hhash : Set.InjOn hash cut)
    (hm : m ≤ 2 ^ 32) (hn : n ≤ 2 ^ 32)
    (hmcut : ¬ Fits extn (candidateStem source schema m) → candidateStem source schema m ∈ cut)
    (hncut : ¬ Fits extn (candidateStem source schema n) → candidateStem source schema n ∈ cut)
    (h : candidateKey u.toCaseTables hash source extn schema m =
      candidateKey u.toCaseTables hash source extn schema n) : m = n := by
  rcases toLowercase_fileBase_eq u.toCaseTables (endsPlain_candidateStem _ _ _)
      (endsPlain_candidateStem _ _ _) (toLowercase_fileBase_of_candidateKey h) with
    ⟨-, -, hstem⟩ | ⟨hcut, hcut', heq⟩
  · exact toLowercase_candidateStem_inj hm hn hstem
  · have hstem := hhash (hmcut hcut) (hncut hcut') heq
    exact toLowercase_candidateStem_inj hm hn (congrArg u.toLowercase hstem)

/-- A run in which no two stems have one hash ends, when there are not more schemas than names for
one, after at most as many turns for each schema as there are schemas. -/
theorem exists_numbers (hlength : schemas.length ≤ o.limit + 1)
    (hhash : Set.InjOn hash
      {s | TriedStem u.toCaseTables o hash source extn schemas s ∧ ¬ Fits extn s}) :
    ∃ given, FirstFit (candidateKey u.toCaseTables hash source extn) ∅ given ∧
      (∀ p ∈ given, p.2 ≤ o.limit) ∧ given.map Prod.fst = schemas.insertionSort (· ≤ ·) ∧
      ∀ turns ≥ schemas.length, searchNames u.toCaseTables o hash source extn turns schemas =
        some (searchesOf hash source extn given) := by
  have hlimit := o.limit_le
  obtain ⟨given, hgiven, hmap, hbound⟩ : ∃ given,
      FirstFit (candidateKey u.toCaseTables hash source extn) ∅ given ∧
      given.map Prod.fst = schemas.insertionSort (· ≤ ·) ∧
      ∀ p ∈ given, p.2 < (∅ : Finset Str).card + given.length := by
    apply exists_firstFit
    rintro given a l hgiven hbound hsorted m ⟨hm, hreached⟩ n ⟨hn, hreached'⟩ hkey
    have hcount := congrArg List.length hsorted
    rw [List.length_insertionSort, List.length_append, List.length_map, List.length_cons] at hcount
    rw [Finset.card_empty, Nat.zero_add] at hm hn hbound
    have hle : ∀ p ∈ given, p.2 ≤ o.limit := by
      intro p hp
      have hlt := hbound p hp
      omega
    exact number_eq_of_candidateKey_eq hhash (by omega) (by omega)
      (fun hcut => ⟨triedStem_of_reached hgiven hle (by omega) hsorted hreached, hcut⟩)
      (fun hcut => ⟨triedStem_of_reached hgiven hle (by omega) hsorted hreached', hcut⟩) hkey
  have hcount := congrArg List.length hmap
  rw [List.length_map, List.length_insertionSort] at hcount
  rw [Finset.card_empty, Nat.zero_add, hcount] at hbound
  have hle : ∀ p ∈ given, p.2 ≤ o.limit := by
    intro p hp
    have hlt := hbound p hp
    omega
  refine ⟨given, hgiven, hle, hmap, fun turns hturns => ?_⟩
  exact assignNames_eq_some_iff.mpr
    ⟨given, hgiven, fun p hp => ⟨((hbound p hp).trans_le hturns).le, hle p hp⟩, hmap, rfl⟩

end Apart

/-! ### What a run that ends went through -/

lemma exists_numbers_of_search
    (h : searchNames u o hash source extn turns schemas = some searches) :
    ∃ given, FirstFit (candidateKey u hash source extn) ∅ given ∧ (∀ p ∈ given, p.2 ≤ o.limit) ∧
      given.map Prod.fst = schemas.insertionSort (· ≤ ·) ∧
      searches = searchesOf hash source extn given := by
  obtain ⟨given, hgiven, hle, hmap, hsearches⟩ := assignNames_eq_some_iff.mp h
  exact ⟨given, hgiven, fun p hp => (hle p hp).2, hmap, hsearches⟩

lemma exists_numbers_of_run
    (h : schemaFilenames u o hash source extn turns schemas = some names) :
    ∃ given, FirstFit (candidateKey u hash source extn) ∅ given ∧ (∀ p ∈ given, p.2 ≤ o.limit) ∧
      given.map Prod.fst = schemas.insertionSort (· ≤ ·) ∧
      names = namesOf hash source extn given := by
  obtain ⟨searches, hsearches, rfl⟩ := Option.map_eq_some_iff.mp h
  obtain ⟨given, hgiven, hle, hmap, rfl⟩ := exists_numbers_of_search hsearches
  exact ⟨given, hgiven, hle, hmap, map_searchesOf given⟩

lemma schemaFilenames_of_search
    (h : searchNames u o hash source extn turns schemas =
      some (searchesOf hash source extn given)) :
    schemaFilenames u o hash source extn turns schemas = some (namesOf hash source extn given) := by
  rw [schemaFilenames, h, Option.map_some, map_searchesOf]

/-- A run has one result. -/
lemma names_eq_of_run (hgiven : FirstFit (candidateKey u hash source extn) ∅ given)
    (hmap : given.map Prod.fst = schemas.insertionSort (· ≤ ·))
    (h : schemaFilenames u o hash source extn turns schemas = some names) :
    names = namesOf hash source extn given := by
  obtain ⟨given', hgiven', -, hmap', hnames⟩ := exists_numbers_of_run h
  rw [hnames, hgiven.unique hgiven' (hmap.trans hmap'.symm)]

lemma mem_of_mem_given (hmap : given.map Prod.fst = schemas.insertionSort (· ≤ ·))
    {p : Str × ℕ} (h : p ∈ given) : p.1 ∈ schemas := by
  have hmem : p.1 ∈ given.map Prod.fst := List.mem_map_of_mem h
  rwa [hmap, List.mem_insertionSort] at hmem

/-- The stems that are tried are those of candidates. -/
lemma TriedStem.exists_schema {s : Str} (h : TriedStem u o hash source extn schemas s) :
    ∃ schema ∈ schemas, ∃ n, s = candidateStem source schema n := by
  obtain ⟨⟨before, after, turns, hsorted, -⟩, -, -⟩ := h
  refine ⟨_, ?_, _, protectDevice_numbered _ _ _⟩
  rw [← (List.perm_insertionSort (· ≤ ·) schemas).mem_iff, hsorted]
  exact List.mem_append_right _ List.mem_cons_self

end

end TdExport
