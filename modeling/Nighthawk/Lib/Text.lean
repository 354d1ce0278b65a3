import Mathlib.Data.List.DropRight

/-!
# ASCII text

Text is a list of characters, one for each byte.
-/

abbrev Str := List Char

namespace Text

/-- Space, tab, line feed, vertical tab, form feed and carriage return. -/
def isSpace (c : Char) : Bool := c = ' ' || (9 ≤ c.toNat && c.toNat ≤ 13)

/-- Without the white space around it. -/
def strip (s : Str) : Str := (s.dropWhile isSpace).rdropWhile isSpace

def toLower (s : Str) : Str := s.map Char.toLower

/-! ## Searching -/

/-- Where `needle` first occurs. -/
def find (needle : Str) : Str → Option Nat
  | [] => if needle = [] then some 0 else none
  | c :: rest => if needle.isPrefixOf (c :: rest) then some 0 else (find needle rest).map (· + 1)

/-- Where a character last occurs. -/
def rfind (sep : Char) (s : Str) : Option Nat := (s.reverse.findIdx? (· = sep)).map fun i => s.length - 1 - i

/-- What stands before and after the first separator. -/
def cut (sep : Char) : Str → Option (Str × Str)
  | [] => none
  | c :: rest => if c = sep then
      some ([], rest) else (cut sep rest).map fun (before, after) => (c :: before, after)

theorem cut_eq_some {sep : Char} {s before after : Str} (h : cut sep s = some (before, after)) :
    s = before ++ sep :: after ∧ sep ∉ before := by
  induction s generalizing before with
  | nil => cases h
  | cons c rest ih =>
    unfold cut at h
    split at h
    · rename_i hc
      simp only [Option.some.injEq, Prod.mk.injEq] at h
      obtain ⟨rfl, rfl⟩ := h
      exact ⟨by rw [hc]; rfl, by simp⟩
    · rename_i hc
      obtain ⟨⟨before', after'⟩, hcut, heq⟩ := Option.map_eq_some_iff.mp h
      simp only [Prod.mk.injEq] at heq
      obtain ⟨rfl, rfl⟩ := heq
      obtain ⟨hrest, hnot⟩ := ih hcut
      refine ⟨by rw [hrest]; rfl, ?_⟩
      intro hmem
      rcases List.mem_cons.mp hmem with heq | hmem
      · exact hc heq.symm
      · exact hnot hmem

theorem cut_append {sep : Char} {before : Str} (h : sep ∉ before) (after : Str) :
    cut sep (before ++ sep :: after) = some (before, after) := by
  induction before with
  | nil => simp [cut]
  | cons c before ih =>
    have hc : c ≠ sep := fun heq => h (by simp [heq])
    have hrest := ih fun hmem => h (List.mem_cons_of_mem _ hmem)
    simp [cut, hc, hrest]

theorem find_append {c : Char} {before : Str} (h : c ∉ before) (needle after : Str) :
    find (c :: needle) (before ++ (c :: needle ++ after)) = some before.length := by
  induction before with
  | nil => simp [find]
  | cons d before ih =>
    have hd : c ≠ d := fun heq => h (by simp [heq])
    have hrest := ih fun hmem => h (List.mem_cons_of_mem _ hmem)
    simp only [List.cons_append] at hrest ⊢
    simp [find, hd, hrest]

theorem rfind_append (sep : Char) (before : Str) {after : Str} (h : sep ∉ after) :
    rfind sep (before ++ sep :: after) = some before.length := by
  have hnone : after.reverse.findIdx? (· = sep) = none := by
    rw [List.findIdx?_eq_none_iff]
    intro c hc
    simpa using fun heq : c = sep => h (heq ▸ List.mem_reverse.mp hc)
  unfold rfind
  rw [List.reverse_append, List.reverse_cons, List.append_assoc, List.findIdx?_append, hnone]
  simp [List.findIdx?_cons]

theorem rfind_eq_none {sep : Char} {s : Str} : rfind sep s = none ↔ sep ∉ s := by
  unfold rfind
  rw [Option.map_eq_none_iff, List.findIdx?_eq_none_iff]
  constructor
  · intro h hmem
    simpa using h sep (List.mem_reverse.mpr hmem)
  · intro h c hc
    simpa using fun heq : c = sep => h (heq ▸ List.mem_reverse.mp hc)

theorem rfind_eq_some {sep : Char} {s : Str} {i : Nat} (h : rfind sep s = some i) :
    ∃ before after, s = before ++ sep :: after ∧ sep ∉ after ∧ before.length = i := by
  have hmem : sep ∈ s.reverse := by
    by_contra hnot
    rw [List.mem_reverse, ← rfind_eq_none, h] at hnot
    cases hnot
  obtain ⟨after, before, hs, hafter⟩ := List.eq_append_cons_of_mem hmem
  have hs : s = before.reverse ++ sep :: after.reverse := by
    rw [← List.reverse_reverse s, hs]
    simp
  rw [hs, rfind_append sep _ (by simpa using hafter)] at h
  exact ⟨_, _, hs, by simpa using hafter, Option.some.inj h⟩

/-! ## Splitting -/

theorem exists_mem_of_mem_intercalate {sep c : Char} {pieces : List Str} (h : c ∈ [sep].intercalate pieces)
    (hc : c ≠ sep) : ∃ piece ∈ pieces, c ∈ piece := by
  induction pieces with
  | nil => simp at h
  | cons piece pieces ih =>
    cases pieces with
    | nil => exact ⟨piece, by simp, by simpa using h⟩
    | cons next pieces =>
      rw [List.intercalate_cons_cons] at h
      simp only [List.mem_append, List.mem_singleton, hc, or_false] at h
      rcases h with h | h
      · exact ⟨piece, by simp, h⟩
      · obtain ⟨p, hp, hmem⟩ := ih h
        exact ⟨p, List.mem_cons_of_mem _ hp, hmem⟩

theorem exists_mem_splitOn {sep c : Char} {s : Str} (h : c ∈ s) (hc : c ≠ sep) :
    ∃ piece ∈ s.splitOn sep, c ∈ piece := by
  have hs : [sep].intercalate (s.splitOn sep) = s := List.intercalate_splitOn sep
  rw [← hs] at h
  exact exists_mem_of_mem_intercalate h hc

/-! ## White space -/

theorem strip_sublist (s : Str) : (strip s).Sublist s := by
  unfold strip
  exact (List.rdropWhile_prefix _ _).sublist.trans (List.dropWhile_sublist _)

theorem dropWhile_strip (s : Str) : (strip s).dropWhile isSpace = strip s := by
  cases hs : strip s with
  | nil => rfl
  | cons c rest =>
    -- The first character was kept by the first `dropWhile`.
    obtain ⟨tail, htail⟩ : strip s <+: s.dropWhile isSpace := List.rdropWhile_prefix _ _
    have hc := List.head?_dropWhile_not isSpace s
    rw [← htail, hs] at hc
    rw [List.dropWhile_cons, show isSpace c = false from hc]
    rfl

theorem strip_strip (s : Str) : strip (strip s) = strip s := by
  rw [strip, dropWhile_strip]
  exact List.rdropWhile_idempotent _ _

theorem count_dropWhile_isSpace {c : Char} (hc : isSpace c = false) (s : Str) :
    (s.dropWhile isSpace).count c = s.count c := by
  have hnot : c ∉ s.takeWhile isSpace := by
    intro hmem
    rw [List.mem_takeWhile_imp hmem] at hc
    cases hc
  conv_rhs => rw [← List.takeWhile_append_dropWhile (p := isSpace) (l := s), List.count_append,
    List.count_eq_zero_of_not_mem hnot, Nat.zero_add]

theorem count_strip {c : Char} (hc : isSpace c = false) (s : Str) : (strip s).count c = s.count c := by
  unfold strip List.rdropWhile
  rw [List.count_reverse, count_dropWhile_isSpace hc, List.count_reverse, count_dropWhile_isSpace hc]

/-! ## Lower case -/

theorem toLower_cases (c : Char) :
    c.toLower = c ∨ (65 ≤ c.toNat ∧ c.toNat ≤ 90 ∧ c.toLower.toNat = c.toNat + 32) := by
  unfold Char.toLower
  split
  · rename_i h
    have hlow : 65 ≤ c.val.toNat := UInt32.le_iff_toNat_le.mp h.1
    have hhigh : c.val.toNat ≤ 90 := UInt32.le_iff_toNat_le.mp h.2
    refine .inr ⟨hlow, hhigh, ?_⟩
    show (c.val + 32).toNat = c.val.toNat + 32
    rw [UInt32.toNat_add, show (32 : UInt32).toNat = 32 from rfl]
    exact Nat.mod_eq_of_lt (by omega)
  · exact .inl rfl

theorem eq_of_toLower_eq {c d : Char} (h : c.toLower = d) (hd : d.toNat < 97) : c = d := by
  rcases toLower_cases c with heq | ⟨hlow, -, hlower⟩
  · exact heq.symm.trans h
  · rw [h] at hlower
    omega

theorem isSpace_of_lt {c : Char} (h : 32 < c.toNat) : isSpace c = false := by
  have hne : c ≠ ' ' := by
    rintro rfl
    revert h
    decide
  simp only [isSpace, hne, decide_false, Bool.false_or, Bool.and_eq_false_iff, decide_eq_false_iff_not]
  omega

theorem isSpace_toLower (c : Char) : isSpace c.toLower = isSpace c := by
  rcases toLower_cases c with h | ⟨hlow, -, h⟩
  · rw [h]
  · rw [isSpace_of_lt (c := c) (by omega), isSpace_of_lt (by omega)]

theorem strip_toLower (s : Str) : strip (toLower s) = toLower (strip s) := by
  have hspace : isSpace ∘ Char.toLower = isSpace := funext isSpace_toLower
  unfold strip toLower List.rdropWhile
  rw [List.dropWhile_map, hspace, ← List.map_reverse, List.dropWhile_map, hspace, List.map_reverse]

/-! ## Decimal numbers -/

/-- The value of a digit string, or `none` for a non-digit. -/
def digitsVal (s : Str) : Option Nat :=
  s.foldl (fun acc c => acc.bind fun v => if c.isDigit then some (10 * v + (c.toNat - 48)) else none) (some 0)

/-- A digit string with white space around it and perhaps a plus sign. -/
def parseNumber (s : Str) : Option Nat :=
  let digits := match strip s with
    | '+' :: ds => ds
    | ds => ds
  if digits = [] then none else digitsVal digits

def parseUnsigned (max : Nat) (s : Str) : Option Nat := (parseNumber s).filter (· ≤ max)

/-- With a minus sign too, from `min` to `max`. -/
def parseSigned (min max : Int) (s : Str) : Option Int :=
  let (negative, digits) := match strip s with
    | '-' :: ds => (true, ds)
    | '+' :: ds => (false, ds)
    | ds => (false, ds)
  if digits = [] then none
  else ((digitsVal digits).map fun n => if negative then -(n : Int) else n).filter fun v => min ≤ v ∧ v ≤ max

/-- The decimal text of a number. -/
def decimal (n : Nat) : Str := Nat.toDigits 10 n

theorem digitsVal_snoc (s : Str) (c : Char) :
    digitsVal (s ++ [c]) = (digitsVal s).bind fun v => if c.isDigit then
      some (10 * v + (c.toNat - 48)) else none := by
  simp [digitsVal, List.foldl_append]

theorem digitsVal_decimal (n : Nat) : digitsVal (decimal n) = some n := by
  have hdigit : ∀ d : Fin 10, (Nat.digitChar d).isDigit = true := by decide
  induction n using Nat.strong_induction_on with
  | _ n ih =>
    by_cases h : n < 10
    · rw [decimal, Nat.toDigits_of_lt_base h]
      simp [digitsVal, hdigit ⟨n, h⟩, Nat.toNat_digitChar_of_lt_ten h]
    · have hmod : n % 10 < 10 := Nat.mod_lt n (by omega)
      rw [decimal, Nat.toDigits_of_base_le (by omega) (by omega), digitsVal_snoc]
      rw [show Nat.toDigits 10 (n / 10) = decimal (n / 10) from rfl, ih (n / 10) (by omega)]
      simp only [Option.bind_some, hdigit ⟨n % 10, hmod⟩, if_true, Nat.toNat_digitChar_of_lt_ten hmod,
        Option.some.injEq]
      omega

theorem strip_eq_self {s : Str} (h : ∀ c ∈ s, isSpace c = false) : strip s = s := by
  unfold strip
  have hleft : s.dropWhile isSpace = s := by
    cases s with
    | nil => rfl
    | cons c rest => rw [List.dropWhile_cons, h c (by simp)]; rfl
  rw [hleft, List.rdropWhile_eq_self_iff]
  intro hs
  simp [h _ (List.getLast_mem hs)]

theorem isSpace_of_isDigit {c : Char} (h : c.isDigit = true) : isSpace c = false := by
  have hnat : 48 ≤ c.toNat := (Char.isDigit_iff_toNat.mp h).1
  unfold isSpace
  simp only [Bool.or_eq_false_iff, decide_eq_false_iff_not, Bool.and_eq_false_iff]
  refine ⟨?_, Or.inr (by omega)⟩
  intro hc
  rw [hc] at h
  revert h
  decide

theorem isDigit_of_mem_decimal {n : Nat} {c : Char} (h : c ∈ decimal n) : c.isDigit = true :=
  Nat.isDigit_of_mem_toDigits (by omega) (by omega) h

theorem strip_decimal (n : Nat) : strip (decimal n) = decimal n :=
  strip_eq_self fun _ hc => isSpace_of_isDigit (isDigit_of_mem_decimal hc)

theorem parseNumber_decimal (n : Nat) : parseNumber (decimal n) = some n := by
  have hne : decimal n ≠ [] := Nat.toDigits_ne_nil
  have hsign : (match decimal n with | '+' :: ds => ds | ds => ds) = decimal n := by
    split
    · rename_i ds heq
      exact absurd (isDigit_of_mem_decimal (n := n) (c := '+') (by simp [heq])) (by decide)
    · rfl
  unfold parseNumber
  rw [strip_decimal]
  simp only [hsign, hne, if_false, digitsVal_decimal]

theorem parseSigned_decimal {min max : Int} {n : Nat} (hmin : min ≤ n) (hmax : n ≤ max) :
    parseSigned min max (decimal n) = some (n : Int) := by
  have hne : decimal n ≠ [] := Nat.toDigits_ne_nil
  have hsign : (match decimal n with | '-' :: ds => (true, ds) | '+' :: ds => (false, ds) | ds => (false, ds)) =
      (false, decimal n) := by
    split
    · rename_i ds heq
      exact absurd (isDigit_of_mem_decimal (n := n) (c := '-') (by simp [heq])) (by decide)
    · rename_i ds heq
      exact absurd (isDigit_of_mem_decimal (n := n) (c := '+') (by simp [heq])) (by decide)
    · rfl
  unfold parseSigned
  rw [strip_decimal]
  simp only [hsign, hne, if_false, digitsVal_decimal]
  simp [hmin, hmax]

/-! ## Leading zeros -/

/-- An integer, filled with zeros to this width. A sign counts. -/
def padded (width : Nat) (n : Int) : Str :=
  if n < 0 then '-' :: (decimal n.natAbs).leftpad (width - 1) '0' else (decimal n.natAbs).leftpad width '0'

theorem digitsVal_leftpad (width : Nat) (s : Str) : digitsVal (s.leftpad width '0') = digitsVal s := by
  have hzeros : ∀ k, (List.replicate k '0').foldl
      (fun acc c => acc.bind fun v => if c.isDigit then
        some (10 * v + (c.toNat - 48)) else none) (some 0) = some 0 := by
    intro k
    induction k with
    | zero => rfl
    | succ k ih => rw [List.replicate_succ, List.foldl_cons]; exact ih
  rw [List.leftpad, digitsVal, List.foldl_append, hzeros]
  rfl

theorem isDigit_of_mem_leftpad {width n : Nat} {c : Char} (h : c ∈ (decimal n).leftpad width '0') :
    c.isDigit = true := by
  rw [List.leftpad, List.mem_append] at h
  obtain h | h := h
  · rw [List.eq_of_mem_replicate h]
    rfl
  · exact isDigit_of_mem_decimal h

theorem mem_padded {width : Nat} {n : Int} {c : Char} (h : c ∈ padded width n) :
    c = '-' ∨ c.isDigit = true := by
  unfold padded at h
  split at h
  · obtain rfl | h := List.mem_cons.mp h
    · exact Or.inl rfl
    · exact Or.inr (isDigit_of_mem_leftpad h)
  · exact Or.inr (isDigit_of_mem_leftpad h)

theorem leftpad_ne_minus {width n : Nat} {s : Str} : (decimal n).leftpad width '0' ≠ '-' :: s := by
  intro h
  have hmem : '-' ∈ (decimal n).leftpad width '0' := by
    rw [h]
    exact List.mem_cons_self
  exact absurd (isDigit_of_mem_leftpad hmem) (by decide)

theorem padded_injective {width : Nat} {n m : Int} (h : padded width n = padded width m) : n = m := by
  have habs : ∀ {w}, (decimal n.natAbs).leftpad w '0' = (decimal m.natAbs).leftpad w '0' →
      n.natAbs = m.natAbs := by
    intro w hw
    have hval := congrArg digitsVal hw
    rw [digitsVal_leftpad, digitsVal_leftpad, digitsVal_decimal, digitsVal_decimal] at hval
    exact Option.some.inj hval
  unfold padded at h
  split_ifs at h
  · have := habs (List.cons.inj h).2
    omega
  · exact absurd h.symm leftpad_ne_minus
  · exact absurd h leftpad_ne_minus
  · have := habs h
    omega

end Text
