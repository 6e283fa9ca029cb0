import TdExport.Export.Filename.Run

/-!
# The names of a run differ

No two files of a run have one name, whether they are files of schemas or of foreign keys, and
also without regard to case.
-/

namespace TdExport

open Core

variable (u : CaseTables) (o : Overflow) (hash : Str → UInt64) (source : Str)

/-- The stems of the files of foreign keys of a run. -/
inductive CrossStem (schemas : List Str) : Str → Prop
  | of_run {turns : ℕ} {names : List (Str × Str)} {p : Str × Str} :
      schemaFilenames u o hash source "sql" turns schemas = some names → p ∈ names →
      CrossStem schemas
        (protectDevice ((stripSuffix ".sql" p.2).getD p.2 ++ ".cross-schema-fk"))

/-- The stems that a run tries and that are too long for a file name. -/
def HashedStems (schemas : List Str) : Set Str :=
  {s | (TriedStem u o hash source "sql" schemas s ∨ CrossStem u o hash source schemas s) ∧
    ¬ Fits "sql" s}

variable {u o hash source} {schemas : List Str} {given : List (Str × ℕ)}

/-! ### Stems that read alike -/

lemma toLowercase_candidateStem_ne_crossStem {extn : Str} (a b : Str) (m n : ℕ) :
    u.toLowercase (candidateStem source a m) ≠ u.toLowercase (crossStem hash source extn b n) := by
  have hmain : candidateStem source a m =
      (fileText a ++ numberTail m ++ ("(" ++ sanitizeFilenamePart source)) ++ [')'] := by
    simp [candidateStem, sourceText]
  have hcross : crossStem hash source extn b n =
      (fileBase hash extn (candidateStem source b n) ++ extensionTail extn ++ ".cross-schema-f") ++
        ['k'] := by
    simp [crossStem]
  obtain ⟨s, hs⟩ := u.exists_toLowercase_append (t := [')'])
    (fileText a ++ numberTail m ++ ("(" ++ sanitizeFilenamePart source)) (by simp)
  obtain ⟨s', hs'⟩ := u.exists_toLowercase_append (t := ['k'])
    (fileBase hash extn (candidateStem source b n) ++ extensionTail extn ++ ".cross-schema-f")
    (by simp)
  rw [hmain, hcross, hs, hs']
  intro h
  exact absurd (List.append_inj' h rfl).2 (by decide)

/-- When no two stems of a run have one hash, names that are equal up to case come from stems that
are. -/
lemma toLowercase_eq_of_fileBase {s s' : Str}
    (hhash : Set.InjOn hash (HashedStems u o hash source schemas))
    (hs : TriedStem u o hash source "sql" schemas s ∨ CrossStem u o hash source schemas s)
    (hs' : TriedStem u o hash source "sql" schemas s' ∨ CrossStem u o hash source schemas s')
    (hplain : EndsPlain s) (hplain' : EndsPlain s')
    (h : u.toLowercase (fileBase hash "sql" s) = u.toLowercase (fileBase hash "sql" s')) :
    u.toLowercase s = u.toLowercase s' := by
  rcases toLowercase_fileBase_eq u hplain hplain' h with ⟨-, -, heq⟩ | ⟨hcut, hcut', heq⟩
  · exact heq
  · rw [hhash ⟨hs, hcut⟩ ⟨hs', hcut'⟩ heq]

/-! ### The names -/

lemma triedStem_of_mem (hgiven : FirstFit (candidateKey u hash source "sql") ∅ given)
    (hlimit : ∀ p ∈ given, p.2 ≤ o.limit)
    (hmap : given.map Prod.fst = schemas.insertionSort (· ≤ ·)) {p : Str × ℕ} (hp : p ∈ given) :
    TriedStem u o hash source "sql" schemas (candidateStem source p.1 p.2) := by
  have hn := hlimit p hp
  obtain ⟨l, l', rfl⟩ := List.append_of_mem hp
  rw [List.map_append, List.map_cons] at hmap
  exact triedStem_of_reached (firstFit_append_iff.mp hgiven).1
    (fun q hq => hlimit q (List.mem_append_left _ hq)) hn hmap.symm hgiven.firstFree.1

lemma crossStem_of_mem {turns : ℕ}
    (hrun : schemaFilenames u o hash source "sql" turns schemas =
      some (namesOf hash source "sql" given)) {p : Str × ℕ} (hp : p ∈ given) :
    CrossStem u o hash source schemas (crossStem hash source "sql" p.1 p.2) := by
  have hmem : (p.1, schemaFilename hash (numbered p.1 p.2) source "sql") ∈
      namesOf hash source "sql" given := List.mem_map.mpr ⟨p, hp, rfl⟩
  have h := CrossStem.of_run hrun hmem
  dsimp only at h
  rwa [protectDevice_cross] at h

/-- The lower-case name of the file of foreign keys that goes with candidate `n` of a schema. -/
def crossKey (u : CaseTables) (hash : Str → UInt64) (source schema : Str) (n : ℕ) : Str :=
  u.toLowercase (crossSchemaFilename hash (schemaFilename hash (numbered schema n) source "sql"))

lemma map_lower_namesOf (given : List (Str × ℕ)) :
    ((namesOf hash source "sql" given).map fun p => u.toLowercase p.2) =
      given.map fun p => candidateKey u hash source "sql" p.1 p.2 := by
  simp only [namesOf, List.map_map, Function.comp_def, candidateKey]

lemma map_cross_namesOf (given : List (Str × ℕ)) :
    ((namesOf hash source "sql" given).map fun p =>
        u.toLowercase (crossSchemaFilename hash p.2)) =
      given.map fun p => crossKey u hash source p.1 p.2 := by
  simp only [namesOf, List.map_map, Function.comp_def, crossKey]

lemma guarded_crossStem (schema : Str) (n : ℕ) :
    FileTables.Guarded (crossStem hash source "sql" schema n) := by
  have htail : extensionTail "sql" = [] := by decide
  rw [crossStem, htail, List.append_nil]
  exact (guarded_fileBase (guarded_candidateStem _ _ _)).append (by simp)

section Run

variable {u : FileTables} {turns : ℕ}

lemma candidateKey_sql (schema : Str) (n : ℕ) :
    candidateKey u.toCaseTables hash source "sql" schema n =
      u.toLowercase (fileBase hash "sql" (candidateStem source schema n)) ++ ".sql" := by
  rw [candidateKey, schemaFilename_numbered, List.append_assoc]
  exact (guarded_fileBase (guarded_candidateStem _ _ _)).toLowercase_append (by simp)

/-- The file of a schema is no file of foreign keys. -/
lemma candidateKey_ne_crossKey
    (hhash : Set.InjOn hash (HashedStems u.toCaseTables o hash source schemas))
    (hgiven : FirstFit (candidateKey u.toCaseTables hash source "sql") ∅ given)
    (hlimit : ∀ p ∈ given, p.2 ≤ o.limit)
    (hmap : given.map Prod.fst = schemas.insertionSort (· ≤ ·))
    (hrun : schemaFilenames u.toCaseTables o hash source "sql" turns schemas =
      some (namesOf hash source "sql" given)) {p q : Str × ℕ} (hp : p ∈ given) (hq : q ∈ given) :
    candidateKey u.toCaseTables hash source "sql" p.1 p.2 ≠
      crossKey u.toCaseTables hash source q.1 q.2 := by
  rw [candidateKey, crossKey, schemaFilename_numbered, crossSchemaFilename_eq, List.append_assoc,
    List.append_assoc]
  intro h
  have hbase := (guarded_fileBase (guarded_candidateStem _ _ _)).toLowercase_eq
    (guarded_fileBase (guarded_crossStem _ _)) h
  have heq := toLowercase_eq_of_fileBase hhash (.inl (triedStem_of_mem hgiven hlimit hmap hp))
    (.inr (crossStem_of_mem hrun hq)) (endsPlain_candidateStem _ _ _) (endsPlain_crossStem _ _ _)
    hbase
  exact toLowercase_candidateStem_ne_crossStem _ _ _ _ heq

/-- Files of foreign keys with one name belong to one file. -/
lemma toLowercase_fileBase_of_crossKey
    (hhash : Set.InjOn hash (HashedStems u.toCaseTables o hash source schemas))
    (hrun : schemaFilenames u.toCaseTables o hash source "sql" turns schemas =
      some (namesOf hash source "sql" given)) {p q : Str × ℕ} (hp : p ∈ given) (hq : q ∈ given)
    (h : crossKey u.toCaseTables hash source p.1 p.2 =
      crossKey u.toCaseTables hash source q.1 q.2) :
    u.toLowercase (fileBase hash "sql" (candidateStem source p.1 p.2)) =
      u.toLowercase (fileBase hash "sql" (candidateStem source q.1 q.2)) := by
  rw [crossKey, crossKey, crossSchemaFilename_eq, crossSchemaFilename_eq, List.append_assoc,
    List.append_assoc] at h
  have hbase := (guarded_fileBase (guarded_crossStem _ _)).toLowercase_eq
    (guarded_fileBase (guarded_crossStem _ _)) h
  have hstem := toLowercase_eq_of_fileBase hhash (.inr (crossStem_of_mem hrun hp))
    (.inr (crossStem_of_mem hrun hq)) (endsPlain_crossStem _ _ _) (endsPlain_crossStem _ _ _) hbase
  rw [crossStem, crossStem, List.append_assoc, List.append_assoc] at hstem
  exact (guarded_fileBase (guarded_candidateStem _ _ _)).toLowercase_eq
    (guarded_fileBase (guarded_candidateStem _ _ _)) hstem

/-- The files of schemas and of foreign keys have different names. -/
lemma nodup_keys (hhash : Set.InjOn hash (HashedStems u.toCaseTables o hash source schemas))
    (hgiven : FirstFit (candidateKey u.toCaseTables hash source "sql") ∅ given)
    (hlimit : ∀ p ∈ given, p.2 ≤ o.limit)
    (hmap : given.map Prod.fst = schemas.insertionSort (· ≤ ·))
    (hrun : schemaFilenames u.toCaseTables o hash source "sql" turns schemas =
      some (namesOf hash source "sql" given)) :
    ((given.map fun p => candidateKey u.toCaseTables hash source "sql" p.1 p.2) ++
      given.map fun p => crossKey u.toCaseTables hash source p.1 p.2).Nodup := by
  have hmain := hgiven.nodup.1
  rw [List.nodup_append]
  refine ⟨hmain, ?_, ?_⟩
  · rw [List.Nodup, List.pairwise_map] at hmain ⊢
    refine hmain.imp_of_mem fun hp hq hne heq => hne ?_
    rw [candidateKey_sql, candidateKey_sql, toLowercase_fileBase_of_crossKey hhash hrun hp hq heq]
  · intro k hk k' hk'
    obtain ⟨p, hp, rfl⟩ := List.mem_map.mp hk
    obtain ⟨q, hq, rfl⟩ := List.mem_map.mp hk'
    exact candidateKey_ne_crossKey hhash hgiven hlimit hmap hrun hp hq

/-- A run over as many schemas as there are names for one ends, and no two of its files have one
name. -/
lemma exists_names_of_run (hlength : schemas.length ≤ o.limit + 1)
    (hhash : Set.InjOn hash (HashedStems u.toCaseTables o hash source schemas)) :
    ∃ names, (∀ turns ≥ schemas.length,
        schemaFilenames u.toCaseTables o hash source "sql" turns schemas = some names) ∧
      names.map Prod.fst = schemas.insertionSort (· ≤ ·) ∧
      ((names.map fun p => u.toLowercase p.2) ++
        names.map fun p => u.toLowercase (crossSchemaFilename hash p.2)).Nodup := by
  have hsub : {s | TriedStem u.toCaseTables o hash source "sql" schemas s ∧ ¬ Fits "sql" s} ⊆
      HashedStems u.toCaseTables o hash source schemas := by
    rintro s ⟨htried, hcut⟩
    exact ⟨.inl htried, hcut⟩
  obtain ⟨given, hgiven, hlimit, hmap, hsearch⟩ := exists_numbers hlength (hhash.mono hsub)
  have hrun := fun turns hturns => schemaFilenames_of_search (hsearch turns hturns)
  refine ⟨namesOf hash source "sql" given, hrun, by rw [map_fst_namesOf, hmap], ?_⟩
  rw [map_lower_namesOf, map_cross_namesOf]
  exact nodup_keys hhash hgiven hlimit hmap (hrun _ le_rfl)

end Run

/-- The order of the input does not matter. -/
lemma insertionSort_eq_of_perm {l l' : List Str} (h : l.Perm l') :
    l.insertionSort (· ≤ ·) = l'.insertionSort (· ≤ ·) := by
  have hperm := ((List.perm_insertionSort (· ≤ ·) l).trans h).trans
    (List.perm_insertionSort (· ≤ ·) l').symm
  refine hperm.eq_of_pairwise (fun a b _ _ => le_antisymm) ?_ ?_
  · exact List.pairwise_insertionSort _ _
  · exact List.pairwise_insertionSort _ _

/-- A run over as many schemas as there are names for one ends, its names are in the order of the
schemas, whatever the order of the input is, and no two files of it have one name, also without
regard to case. -/
theorem schemaFilenames_unique (u : FileTables) (o : Overflow) (hash : Str → UInt64)
    (source : Str) (schemas : List Str) (hnodup : schemas.Nodup)
    (hlength : schemas.length ≤ o.limit + 1)
    (hhash : Set.InjOn hash (HashedStems u.toCaseTables o hash source schemas)) :
    ∃ names, (∀ turns ≥ schemas.length,
        schemaFilenames u.toCaseTables o hash source "sql" turns schemas = some names) ∧
      (names.map Prod.fst).Perm schemas ∧ (names.map Prod.fst).Pairwise (· < ·) ∧
      (∀ schemas', schemas'.Perm schemas → ∀ turns ≥ schemas.length,
        schemaFilenames u.toCaseTables o hash source "sql" turns schemas' = some names) ∧
      ((names.map fun p => u.toLowercase p.2) ++
        names.map fun p => u.toLowercase (crossSchemaFilename hash p.2)).Nodup := by
  obtain ⟨names, hrun, hfst, hkeys⟩ := exists_names_of_run hlength hhash
  refine ⟨names, hrun, ?_, ?_, ?_, hkeys⟩
  · rw [hfst]
    exact List.perm_insertionSort _ _
  · rw [hfst]
    have hsorted := List.pairwise_insertionSort (· ≤ ·) schemas
    have hdistinct := (List.perm_insertionSort (· ≤ ·) schemas).nodup_iff.mpr hnodup
    exact hsorted.imp₂ (fun a b => lt_of_le_of_ne) hdistinct
  · intro schemas' hperm turns hturns
    rw [schemaFilenames, searchNames, insertionSort_eq_of_perm hperm]
    exact hrun turns hturns

/-! ### Short names -/

/-- No name of the files of these schemas is cut. -/
def ShortNames (source : Str) (schemas : List Str) : Prop :=
  ∀ a ∈ schemas, utf8Len (fileText a) + utf8Len (sourceText source) ≤ 200

lemma ShortNames.utf8Len_le (h : ShortNames source schemas) {a : Str} (ha : a ∈ schemas) (n : ℕ) :
    utf8Len (candidateStem source a n) ≤ 212 := by
  have hstem := utf8Len_candidateStem_le source a n
  have hshort := h a ha
  omega

lemma ShortNames.hashedStems_eq (h : ShortNames source schemas) :
    HashedStems u o hash source schemas = ∅ := by
  have hsql : utf8Len "sql".toList = 3 := by decide
  rw [Set.eq_empty_iff_forall_notMem]
  rintro s ⟨htried | ⟨hrun, hp⟩, hcut⟩
  · obtain ⟨a, ha, n, rfl⟩ := htried.exists_schema
    have hle := h.utf8Len_le ha n
    exact hcut (fits_of_le (by rw [maxFilenameBytes, hsql]; omega))
  · obtain ⟨given, -, -, hmap, rfl⟩ := exists_numbers_of_run hrun
    obtain ⟨q, hq, rfl⟩ := List.mem_map.mp hp
    have hle := h.utf8Len_le (mem_of_mem_given hmap hq) q.2
    have htail : utf8Len (extensionTail "sql" ++ ".cross-schema-fk".toList) = 16 := by decide
    dsimp only at hcut
    rw [protectDevice_cross, crossStem,
      fileBase_of_fits (fits_of_le (by rw [maxFilenameBytes, hsql]; omega))] at hcut
    refine hcut (fits_of_le ?_)
    rw [List.append_assoc, utf8Len_append, htail, maxFilenameBytes, hsql]
    omega

lemma ShortNames.injOn (h : ShortNames source schemas) :
    Set.InjOn hash (HashedStems u o hash source schemas) := by
  rw [h.hashedStems_eq]
  exact Set.injOn_empty _

theorem schemaFilenames_unique_slash :
    ∃ names, (∀ turns ≥ 2, schemaFilenames .asciiOnly .panics (fun _ => 0) "h" "sql" turns
        ["x_y", "x/y"] = some names) ∧
      (names.map Prod.fst).Perm ["x_y", "x/y"] ∧ (names.map Prod.fst).Pairwise (· < ·) ∧
      (∀ schemas', schemas'.Perm ["x_y", "x/y"] → ∀ turns ≥ 2,
        schemaFilenames .asciiOnly .panics (fun _ => 0) "h" "sql" turns schemas' = some names) ∧
      ((names.map fun p => CaseTables.asciiOnly.toLowercase p.2) ++
        names.map fun p =>
          CaseTables.asciiOnly.toLowercase (crossSchemaFilename (fun _ => 0) p.2)).Nodup := by
  have hshort : ShortNames "h" ["x_y", "x/y"] := by
    rw [ShortNames]
    decide +kernel
  exact schemaFilenames_unique .asciiOnly .panics (fun _ => 0) "h" ["x_y", "x/y"] (by decide)
    (by decide) hshort.injOn

/-! ### Too many schemas -/

/-- Schemas with different names and one text: the digits of a number in base two, one replaced
character each. -/
def slashes (i : ℕ) : Str := (List.range 33).map fun k => if i.testBit k then '/' else ':'

lemma slashes_injOn : Set.InjOn slashes {i | i < 2 ^ 33} := by
  intro i hi j hj h
  refine Nat.eq_of_testBit_eq fun k => ?_
  by_cases hk : k < 33
  · have hbit := List.map_inj_left.mp h k (List.mem_range.mpr hk)
    cases hik : i.testBit k <;> cases hjk : j.testBit k
    · rfl
    · rw [hik, hjk] at hbit
      exact absurd hbit (by decide)
    · rw [hik, hjk] at hbit
      exact absurd hbit (by decide)
    · rfl
  · have hlarge : 2 ^ 33 ≤ 2 ^ k := Nat.pow_le_pow_right (by norm_num) (by omega)
    rw [Nat.testBit_lt_two_pow (hi.trans_le hlarge), Nat.testBit_lt_two_pow (hj.trans_le hlarge)]

lemma fileText_slashes (i : ℕ) : fileText (slashes i) = List.replicate 33 '_' := by
  have hpart : sanitizeFilenamePart (slashes i) = List.replicate 33 '_' := by
    rw [sanitizeFilenamePart, slashes, List.map_map, List.eq_replicate_iff]
    refine ⟨by rw [List.length_map, List.length_range], fun c hc => ?_⟩
    obtain ⟨k, -, rfl⟩ := List.mem_map.mp hc
    cases hk : i.testBit k <;> simp only [Function.comp_apply, hk] <;> decide
  rw [fileText, hpart]
  decide

section TooMany

variable {o : Overflow} {hash : Str → UInt64} {n : ℕ}

lemma shortNames_slashes : ShortNames "h" ((List.range n).map slashes) := by
  intro a ha
  obtain ⟨i, -, rfl⟩ := List.mem_map.mp ha
  have htext : utf8Len (List.replicate 33 '_') = 33 := by decide
  have hsource : utf8Len (sourceText "h") = 3 := by decide
  rw [fileText_slashes, htext, hsource]
  norm_num

/-- When such schemas get names, there are not more of them than names for one. -/
lemma le_limit_of_slashes {u : CaseTables} {turns : ℕ} {names : List (Str × Str)}
    (h : schemaFilenames u o hash "h" "sql" turns ((List.range n).map slashes) = some names) :
    n ≤ o.limit + 1 := by
  obtain ⟨given, hgiven, hlimit, hmap, -⟩ := exists_numbers_of_run h
  have hkey : ∀ p ∈ given, candidateKey u hash "h" "sql" p.1 p.2 = u.toLowercase
      (fileBase hash "sql" (List.replicate 33 '_' ++ numberTail p.2 ++ sourceText "h") ++ "." ++
        "sql") := by
    intro p hp
    obtain ⟨i, -, hi⟩ := List.mem_map.mp (mem_of_mem_given hmap hp)
    rw [candidateKey, schemaFilename_numbered, candidateStem, ← hi, fileText_slashes]
  -- the name of a schema depends on its number only
  have hnumbers : (given.map Prod.snd).Nodup := by
    have hnodup := hgiven.nodup.1
    rw [List.map_congr_left hkey] at hnodup
    rw [List.Nodup, List.pairwise_map] at hnodup ⊢
    exact hnodup.imp fun hne heq => hne (by rw [heq])
  have hsub : (given.map Prod.snd).toFinset ⊆ Finset.range (o.limit + 1) := by
    intro k hk
    obtain ⟨p, hp, rfl⟩ := List.mem_map.mp (List.mem_toFinset.mp hk)
    exact Finset.mem_range.mpr (Nat.lt_succ_of_le (hlimit p hp))
  have hcard := Finset.card_le_card hsub
  have hcount := congrArg List.length hmap
  rw [List.length_insertionSort, List.length_map, List.length_map, List.length_range] at hcount
  rwa [List.toFinset_card_of_nodup hnumbers, Finset.card_range, List.length_map, hcount] at hcard

end TooMany

/-- With one schema more than there are names for one the search does not end, or panics. -/
theorem not_schemaFilenames_overflow :
    (¬ ∀ (u : FileTables) (hash : Str → UInt64) (source : Str) (schemas : List Str),
      schemas.Nodup → Set.InjOn hash (HashedStems u.toCaseTables .panics hash source schemas) →
      ∃ turns names,
        schemaFilenames u.toCaseTables .panics hash source "sql" turns schemas = some names) ∧
    ¬ ∀ (u : FileTables) (hash : Str → UInt64) (source : Str) (schemas : List Str),
      schemas.Nodup → Set.InjOn hash (HashedStems u.toCaseTables .wraps hash source schemas) →
      ∃ turns names,
        schemaFilenames u.toCaseTables .wraps hash source "sql" turns schemas = some names := by
  have hmany : ∀ o : Overflow, ((List.range (o.limit + 2)).map slashes).Nodup := by
    intro o
    have hlimit := o.limit_le
    refine List.Nodup.map_on (fun i hi j hj => slashes_injOn ?_ ?_) List.nodup_range
    · exact (List.mem_range.mp hi).trans_le (by omega)
    · exact (List.mem_range.mp hj).trans_le (by omega)
  constructor
  · intro h
    obtain ⟨turns, names, hrun⟩ := h .asciiOnly (fun _ => 0) "h" _ (hmany .panics)
      shortNames_slashes.injOn
    exact absurd (le_limit_of_slashes hrun) (by decide)
  · intro h
    obtain ⟨turns, names, hrun⟩ := h .asciiOnly (fun _ => 0) "h" _ (hmany .wraps)
      shortNames_slashes.injOn
    exact absurd (le_limit_of_slashes hrun) (by decide)

end TdExport
