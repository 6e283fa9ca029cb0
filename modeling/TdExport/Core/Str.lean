import Mathlib.Data.Char
import Mathlib.Data.List.DropRight
import Mathlib.Data.List.Lex
import Mathlib.Tactic

/-!
# Strings as lists of characters

A string of the modelled programs is the list of its Unicode scalar values. The operations
below follow the documented behaviour of the standard library functions they are named after;
splitting on a character is `List.splitOn` and joining is `List.intercalate`.
-/

namespace Core

/-- A string, as the list of its characters. -/
abbrev Str := List Char

instance : Coe String Str := ⟨String.toList⟩

/-- A string followed by a line break. -/
def writeln (s : Str) : Str := s ++ ['\n']

/-! ### Character classes -/

/-- The characters with the Unicode property `White_Space`. -/
def isWhitespace (c : Char) : Bool :=
  let n := c.toNat
  (0x9 ≤ n && n ≤ 0xD) || n == 0x20 || n == 0x85 || n == 0xA0 || n == 0x1680 ||
    (0x2000 ≤ n && n ≤ 0x200A) || n == 0x2028 || n == 0x2029 || n == 0x202F || n == 0x205F ||
    n == 0x3000

/-- The control characters (general category `Cc`). -/
def isControl (c : Char) : Bool :=
  let n := c.toNat
  n ≤ 0x1F || (0x7F ≤ n && n ≤ 0x9F)

/-! ### Trimming -/

def trimEnd (s : Str) : Str := s.rdropWhile isWhitespace

def trimStart (s : Str) : Str := s.dropWhile isWhitespace

def trim (s : Str) : Str := trimEnd (s.dropWhile isWhitespace)

/-- Drop the characters of `cs` at the end of `s`. -/
def trimEndMatches (cs : List Char) (s : Str) : Str := s.rdropWhile (cs.contains ·)

/-- What is dropped at the end of a text does not matter when it is dropped anyway. -/
lemma rdropWhile_append_of_forall {p : Char → Bool} {t : Str} (h : ∀ c ∈ t, p c = true) (s : Str) :
    (s ++ t).rdropWhile p = s.rdropWhile p := by
  induction t using List.reverseRecOn with
  | nil => rw [List.append_nil]
  | append_singleton t c ih =>
    rw [← List.append_assoc, List.rdropWhile_concat_pos _ _ _ (h c (by simp)),
      ih fun d hd => h d (List.mem_append_left [c] hd)]

/-- The last character that is left is not dropped. -/
lemma rdropWhile_cases (p : Char → Bool) (s : Str) :
    s.rdropWhile p = [] ∨ ∃ r c, s.rdropWhile p = r ++ [c] ∧ p c = false := by
  rcases List.eq_nil_or_concat' (s.rdropWhile p) with h | ⟨r, c, h⟩
  · exact .inl h
  · have hne : s.rdropWhile p ≠ [] := by simp [h]
    have hlast : ¬ p ((s.rdropWhile p).getLast hne) = true := List.rdropWhile_last_not p s hne
    exact .inr ⟨r, c, h, by simpa [h] using hlast⟩

lemma not_suffix_rdropWhile {p : Char → Bool} {c : Char} (hc : p c = true) (s : Str) :
    ¬ [c] <:+ s.rdropWhile p := by
  rcases rdropWhile_cases p s with h | ⟨r, d, h, hd⟩
  · simp [h]
  · rw [h]
    intro hend
    obtain rfl : c = d := List.singleton_suffix_append_singleton_iff.mp hend
    rw [hc] at hd
    cases hd

lemma exists_append_trimEnd (s : Str) :
    ∃ w, s = trimEnd s ++ w ∧ ∀ c ∈ w, isWhitespace c = true :=
  ⟨s.rtakeWhile isWhitespace, (List.rdropWhile_append_rtakeWhile).symm,
    fun _ hc => List.mem_rtakeWhile_imp hc⟩

lemma trimEnd_concat {c : Char} (hc : isWhitespace c = false) (s : Str) :
    trimEnd (s ++ [c]) = s ++ [c] :=
  List.rdropWhile_concat_neg _ _ _ (by simp [hc])

/-- `s` without `start`, when it starts with it. -/
def stripPrefix (start s : Str) : Option Str :=
  if start.isPrefixOf s then some (s.drop start.length) else none

lemma stripPrefix_append (start s : Str) : stripPrefix start (start ++ s) = some s := by
  simp [stripPrefix]

/-- `s` without the suffix `suffix`, when it ends in it. -/
def stripSuffix (suffix s : Str) : Option Str :=
  if suffix.isSuffixOf s then some (s.take (s.length - suffix.length)) else none

lemma stripSuffix_append (s suffix : Str) : stripSuffix suffix (s ++ suffix) = some s := by
  simp [stripSuffix]

/-- White space at the end does not survive `trim`. -/
lemma trim_concat {c : Char} (hc : isWhitespace c = true) (s : Str) :
    trim (s ++ [c]) = trim s := by
  induction s with
  | nil => simp [trim, trimEnd, hc]
  | cons d s ih =>
    by_cases hd : isWhitespace d = true
    · simpa [trim, hd] using ih
    · simp only [trim, trimEnd, List.cons_append, List.dropWhile_cons, hd, if_neg,
        Bool.false_eq_true, not_false_eq_true]
      rw [← List.cons_append, List.rdropWhile_concat_pos _ _ _ hc]

/-! ### Splitting -/

/-- The words of `s`: the longest pieces without white space. -/
def splitWhitespace (s : Str) : List Str := (s.splitOnP isWhitespace).filter (· ≠ [])

/-- A character other than the separator goes to the last piece. -/
lemma splitOn_concat {sep c : Char} (hc : c ≠ sep) (s : Str) :
    ∃ init last, s.splitOn sep = init ++ [last] ∧
      (s ++ [c]).splitOn sep = init ++ [last ++ [c]] := by
  induction s with
  | nil =>
    have hsep : sep ∉ [c] := by simpa using hc.symm
    exact ⟨[], [], by simp, by simp [List.splitOn_eq_singleton hsep]⟩
  | cons d s ih =>
    obtain ⟨init, last, hs, hsc⟩ := ih
    rw [List.cons_append, List.splitOn_cons_eq_if_modifyHead, List.splitOn_cons_eq_if_modifyHead,
      hs, hsc]
    by_cases hd : d = sep
    · exact ⟨[] :: init, last, by simp [hd], by simp [hd]⟩
    · cases init with
      | nil => exact ⟨[], d :: last, by simp [hd], by simp [hd]⟩
      | cons x xs => exact ⟨(d :: x) :: xs, last, by simp [hd], by simp [hd]⟩

/-- A text can be cut at the last `c` in only one way. -/
lemma append_cons_inj {c : Char} {s s' t t' : Str} (ht : c ∉ t) (ht' : c ∉ t')
    (h : s ++ c :: t = s' ++ c :: t') : s = s' ∧ t = t' := by
  rcases List.append_eq_append_iff.mp h with ⟨r, rfl, hr⟩ | ⟨r, rfl, hr⟩
  · cases r with
    | nil => exact ⟨by simp, by simpa using hr⟩
    | cons d r =>
      obtain ⟨-, rfl⟩ := List.cons.inj hr
      simp at ht
  · cases r with
    | nil => exact ⟨by simp, by simpa using hr.symm⟩
    | cons d r =>
      obtain ⟨-, rfl⟩ := List.cons.inj hr
      simp at ht'

/-! ### Joining -/

lemma intercalate_concat (sep : Str) {pieces : List Str} (h : pieces ≠ []) (piece : Str) :
    sep.intercalate (pieces ++ [piece]) = sep.intercalate pieces ++ sep ++ piece := by
  induction pieces with
  | nil => exact absurd rfl h
  | cons first pieces ih =>
    cases pieces with
    | nil => simp
    | cons second pieces =>
      rw [List.cons_append, List.intercalate_cons_of_ne_nil (by simp), ih (by simp),
        List.intercalate_cons_cons]
      simp

/-- Texts are joined to no text only when there is none. -/
lemma intercalate_eq_nil_iff (sep : Str) {pieces : List Str} (h : ∀ piece ∈ pieces, piece ≠ []) :
    sep.intercalate pieces = [] ↔ pieces = [] := by
  refine ⟨fun hnil => ?_, fun hnil => by rw [hnil, List.intercalate_nil]⟩
  cases pieces with
  | nil => rfl
  | cons first pieces =>
    have hfirst := h first List.mem_cons_self
    cases pieces with
    | nil => exact absurd (List.intercalate_singleton.symm.trans hnil) hfirst
    | cons second pieces =>
      rw [List.intercalate_cons_cons] at hnil
      exact absurd (List.append_eq_nil_iff.mp (List.append_eq_nil_iff.mp hnil).1).1 hfirst

/-! ### Searching and replacing -/

/-- `s` contains the text `pat`. -/
def containsStr (pat : Str) : Str → Bool
  | [] => pat.isEmpty
  | c :: s => pat.isPrefixOf (c :: s) || containsStr pat s

lemma containsStr_iff {pat s : Str} : containsStr pat s = true ↔ pat <:+: s := by
  induction s with
  | nil => simp [containsStr]
  | cons c s ih => simp [containsStr, ih, List.infix_cons_iff]

/-- The position of the first occurrence of `pat` in `s`. -/
def find (pat : Str) : Str → Option ℕ
  | [] => if pat.isEmpty then some 0 else none
  | c :: s => if pat.isPrefixOf (c :: s) then some 0 else (find pat s).map (· + 1)

/-- The texts before and after the first occurrence of `sep`. -/
def splitOnce (sep s : Str) : Option (Str × Str) :=
  (find sep s).map fun i => (s.take i, s.drop (i + sep.length))

/-- The scan of `replaceStr`; the counter is the number of characters of the last match that are
still to be passed over. -/
def replaceFrom (pat rep : Str) : ℕ → Str → Str
  | _, [] => []
  | skip + 1, _ :: s => replaceFrom pat rep skip s
  | 0, c :: s =>
    if pat.isPrefixOf (c :: s) then rep ++ replaceFrom pat rep (pat.length - 1) s
    else c :: replaceFrom pat rep 0 s

/-- Replace the leftmost, non-overlapping occurrences of the non-empty `pat`. -/
def replaceStr (pat rep s : Str) : Str := replaceFrom pat rep 0 s

/-- Replace every character `c` by `rep c`. -/
def replaceChars (rep : Char → Str) (s : Str) : Str := s.flatMap rep

/-- The positions of the leftmost, non-overlapping occurrences of a non-empty `pat` in `s`, each
as the text before it and the text after it. `done` is the text already scanned. -/
def matchesFrom (pat : Str) : ℕ → Str → Str → List (Str × Str)
  | _, _, [] => []
  | skip + 1, done, c :: s => matchesFrom pat skip (done ++ [c]) s
  | 0, done, c :: s =>
    if pat.isPrefixOf (c :: s) then
      (done, (c :: s).drop pat.length) :: matchesFrom pat (pat.length - 1) (done ++ [c]) s
    else matchesFrom pat 0 (done ++ [c]) s

def matchIndices (pat s : Str) : List (Str × Str) := matchesFrom pat 0 [] s

/-! ### UTF-8 lengths and positions -/

/-- The number of bytes of `s` in UTF-8. -/
def utf8Len (s : Str) : ℕ := (s.map Char.utf8Size).sum

@[simp] lemma utf8Len_nil : utf8Len [] = 0 := rfl

@[simp] lemma utf8Len_cons (c : Char) (s : Str) : utf8Len (c :: s) = c.utf8Size + utf8Len s := by
  simp [utf8Len]

@[simp] lemma utf8Len_append (s t : Str) : utf8Len (s ++ t) = utf8Len s + utf8Len t := by
  simp [utf8Len]

/-- An ASCII character is one byte. -/
lemma utf8Size_of_lt {c : Char} (h : c.toNat < 128) : c.utf8Size = 1 :=
  Char.utf8Size_eq_one_iff.mpr (UInt32.le_iff_toNat_le.mpr (Nat.le_of_lt_succ h))

lemma utf8Len_of_forall_lt {s : Str} (h : ∀ c ∈ s, c.toNat < 128) : utf8Len s = s.length := by
  induction s with
  | nil => rfl
  | cons c s ih =>
    rw [utf8Len_cons, utf8Size_of_lt (h c List.mem_cons_self),
      ih fun d hd => h d (List.mem_cons_of_mem _ hd), List.length_cons, Nat.add_comm]

/-- Byte `i` of `s` is the start of a character or the end of `s`. -/
def isCharBoundary : Str → ℕ → Bool
  | _, 0 => true
  | [], _ + 1 => false
  | c :: s, n + 1 => c.utf8Size ≤ n + 1 && isCharBoundary s (n + 1 - c.utf8Size)

/-- The characters of `s` that end at or before byte `i`. -/
def sliceTo : Str → ℕ → Str
  | [], _ => []
  | c :: s, n => if c.utf8Size ≤ n then c :: sliceTo s (n - c.utf8Size) else []

lemma sliceTo_prefix (s : Str) (n : ℕ) : sliceTo s n <+: s := by
  induction s generalizing n with
  | nil => simp [sliceTo]
  | cons c s ih =>
    simp only [sliceTo]
    split_ifs
    · exact List.cons_prefix_cons.mpr ⟨rfl, ih _⟩
    · exact List.nil_prefix

/-- What ends at the start of a character is cut there. -/
lemma utf8Len_sliceTo {s : Str} {n : ℕ} (h : isCharBoundary s n = true) :
    utf8Len (sliceTo s n) = n := by
  induction s generalizing n with
  | nil =>
    cases n with
    | zero => rfl
    | succ n => cases h
  | cons c s ih =>
    cases n with
    | zero =>
      have hc : ¬c.utf8Size ≤ 0 := by simpa using c.utf8Size_pos.ne'
      rw [sliceTo, if_neg hc]
      rfl
    | succ n =>
      rw [isCharBoundary, Bool.and_eq_true, decide_eq_true_eq] at h
      rw [sliceTo, if_pos h.1, utf8Len_cons, ih h.2, Nat.add_sub_cancel' h.1]

lemma le_utf8Len_of_isCharBoundary {s : Str} {n : ℕ} (h : isCharBoundary s n = true) :
    n ≤ utf8Len s := by
  obtain ⟨t, ht⟩ := sliceTo_prefix s n
  rw [← ht, utf8Len_append, utf8Len_sliceTo h]
  exact Nat.le_add_right _ _

lemma length_le_utf8Len (s : Str) : s.length ≤ utf8Len s := by
  induction s with
  | nil => simp
  | cons c s ih =>
    have := c.utf8Size_pos
    simp only [List.length_cons, utf8Len_cons]
    omega

/-! ### Numbers -/

/-- `n` in decimal. -/
def natStr (n : ℕ) : Str := Nat.toDigits 10 n

/-- `n` in decimal, with its sign. -/
def intStr (n : ℤ) : Str := (toString n).toList

lemma natStr_injective : Function.Injective natStr := by
  intro m n h
  have := congrArg (fun s => Nat.ofDigitChars 10 s 0) h
  simpa [natStr, Nat.ofDigitChars_ten_toDigits] using this

lemma isDigit_of_mem_natStr {n : ℕ} {c : Char} (h : c ∈ natStr n) : c.isDigit = true :=
  Nat.isDigit_of_mem_toDigits (by norm_num) le_rfl h

lemma intStr_natCast (n : ℕ) : intStr n = natStr n := by
  have hrepr : toString (n : ℤ) = n.repr := rfl
  rw [intStr, hrepr, Nat.toList_repr, natStr]

lemma intStr_negSucc (n : ℕ) : intStr (.negSucc n) = '-' :: natStr (n + 1) := by
  have hrepr : toString (Int.negSucc n) = "-" ++ (n + 1).repr := rfl
  rw [intStr, hrepr, String.toList_append, Nat.toList_repr, natStr]
  rfl

lemma mem_intStr {z : ℤ} {c : Char} (h : c ∈ intStr z) : c = '-' ∨ c.isDigit = true := by
  cases z with
  | ofNat n =>
    rw [Int.ofNat_eq_natCast, intStr_natCast] at h
    exact .inr (isDigit_of_mem_natStr h)
  | negSucc n =>
    rw [intStr_negSucc] at h
    exact (List.mem_cons.mp h).imp id isDigit_of_mem_natStr

lemma intStr_injective : Function.Injective intStr := by
  have hsign : ∀ m n : ℕ, natStr m ≠ '-' :: natStr n := by
    intro m n h
    exact absurd (isDigit_of_mem_natStr (h ▸ List.mem_cons_self : '-' ∈ natStr m)) (by decide)
  intro y z h
  cases y <;> cases z <;> simp only [Int.ofNat_eq_natCast, intStr_natCast, intStr_negSucc] at h
  · rw [natStr_injective h]
  · exact absurd h (hsign _ _)
  · exact absurd h.symm (hsign _ _)
  · rw [Nat.succ_injective (natStr_injective (List.cons.inj h).2)]

lemma length_natStr {n e : ℕ} (he : 0 < e) (hn : n < 10 ^ e) : (natStr n).length ≤ e :=
  Nat.toDigits_length 10 n e he hn

/-- A decimal digit is an ASCII character without a case. -/
lemma toLower_of_isDigit {c : Char} (h : c.isDigit = true) : c.toNat < 128 ∧ c.toLower = c := by
  obtain ⟨hlow, hhigh⟩ := Char.isDigit_iff_toNat.mp h
  have hdigits : ∀ n < 58, (Char.ofNat n).toLower = Char.ofNat n := by decide
  have hc := hdigits c.toNat (Nat.lt_succ_of_le hhigh)
  rw [Char.ofNat_toNat] at hc
  exact ⟨hhigh.trans_lt (by decide), hc⟩

/-- The lower-case hexadecimal digit of `n < 16`. -/
def hexDigit (n : ℕ) : Char := if n < 10 then Char.ofNat (48 + n) else Char.ofNat (87 + n)

/-- The last `k` hexadecimal digits of `n`, most significant first. -/
def hexDigits : ℕ → ℕ → Str
  | 0, _ => []
  | k + 1, n => hexDigits k (n / 16) ++ [hexDigit (n % 16)]

@[simp] lemma length_hexDigits (k n : ℕ) : (hexDigits k n).length = k := by
  induction k generalizing n with
  | zero => rfl
  | succ k ih => simp [hexDigits, ih]

/-- The characters of `hexDigits`. -/
def isHexChar (c : Char) : Bool := c.isDigit || (97 ≤ c.toNat && c.toNat ≤ 102)

lemma hexDigit_injOn : ∀ m < 16, ∀ n < 16, hexDigit m = hexDigit n → m = n := by decide

lemma isHexChar_hexDigit : ∀ n < 16, isHexChar (hexDigit n) = true := by decide

lemma exists_of_mem_hexDigits {k n : ℕ} {c : Char} (h : c ∈ hexDigits k n) :
    ∃ d < 16, c = hexDigit d := by
  induction k generalizing n with
  | zero => simp [hexDigits] at h
  | succ k ih =>
    rcases List.mem_append.mp h with h | h
    · exact ih h
    · exact ⟨n % 16, Nat.mod_lt _ (by norm_num), List.mem_singleton.mp h⟩

lemma hexDigits_injOn {k m n : ℕ} (hm : m < 16 ^ k) (hn : n < 16 ^ k)
    (h : hexDigits k m = hexDigits k n) : m = n := by
  induction k generalizing m n with
  | zero => simp at hm hn; omega
  | succ k ih =>
    obtain ⟨hdiv, hmod⟩ := List.append_inj' h rfl
    rw [pow_succ] at hm hn
    have h₁ := ih (Nat.div_lt_of_lt_mul (by omega)) (Nat.div_lt_of_lt_mul (by omega)) hdiv
    have h₂ := hexDigit_injOn _ (Nat.mod_lt m (by norm_num)) _ (Nat.mod_lt n (by norm_num))
      (List.singleton_inj.mp hmod)
    omega

end Core
