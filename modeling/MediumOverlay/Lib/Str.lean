import Mathlib

/-!
# Strings

The functions of Rust's `str` that a model needs, on lists of characters.
-/

namespace Str

/-- `split_once`: the parts before and after the first `c`. -/
def splitOnce (c : Char) (s : String) : Option (String × String) :=
  match s.toList.dropWhile (· ≠ c) with
  | [] => none
  | _ :: rest => some (.ofList (s.toList.takeWhile (· ≠ c)), .ofList rest)

/-- `split`. -/
def split (c : Char) (s : String) : List String := (s.toList.splitOn c).map .ofList

/-- The parts before and after the first occurrence of a text. -/
def splitOnceAt (pattern : List Char) : List Char → Option (List Char × List Char)
  | [] => if pattern = [] then some ([], []) else none
  | c :: cs =>
    if pattern.isPrefixOf (c :: cs) then some ([], (c :: cs).drop pattern.length)
    else (splitOnceAt pattern cs).map fun parts => (c :: parts.1, parts.2)

/-- `split_once` with a text. -/
def splitOnceStr (pattern s : String) : Option (String × String) :=
  (splitOnceAt pattern.toList s.toList).map (Prod.map .ofList .ofList)

/-- `rsplit_once`: the parts before and after the last `c`. -/
def rsplitOnce (c : Char) (s : String) : Option (String × String) :=
  match s.toList.reverse.dropWhile (· ≠ c) with
  | [] => none
  | _ :: rest => some (.ofList rest.reverse, .ofList (s.toList.reverse.takeWhile (· ≠ c)).reverse)

/-- `strip_prefix`. -/
def stripPrefix (pattern s : String) : Option String :=
  (s.toList.dropPrefix? pattern.toList).map .ofList

/-- The digits of a number, most significant first, up to a bound. -/
def parseDigits (bound : Nat) : Nat → List Char → Except String Nat
  | n, [] => .ok n
  | n, c :: cs =>
    if c.isDigit then
      let n := n * 10 + (c.toNat - '0'.toNat)
      if bound < n then .error "number too large to fit in target type"
      else parseDigits bound n cs
    else .error "invalid digit found in string"

/-- The number that decimal digits stand for, behind those of another. -/
def decimal (n : Nat) (cs : List Char) : Nat :=
  cs.foldl (fun n c => n * 10 + (c.toNat - '0'.toNat)) n

/-- `parse` to an unsigned type with a largest value. -/
def parseUnsigned (bound : Nat) (s : String) : Except String Nat :=
  match s.toList with
  | [] => .error "cannot parse integer from empty string"
  | ['+'] => .error "invalid digit found in string"
  | '+' :: cs => parseDigits bound 0 cs
  | cs => parseDigits bound 0 cs

/-- The characters with the property White_Space. -/
def isWhitespace (c : Char) : Bool :=
  let n := c.toNat
  (0x9 ≤ n && n ≤ 0xd) || n = 0x20 || n = 0x85 || n = 0xa0 || n = 0x1680
    || (0x2000 ≤ n && n ≤ 0x200a) || n = 0x2028 || n = 0x2029 || n = 0x202f || n = 0x205f
    || n = 0x3000

/-- `trim_matches`: without the characters at both ends that a test accepts. -/
def trimMatches (p : Char → Bool) (s : String) : String :=
  .ofList ((s.toList.dropWhile p).reverse.dropWhile p).reverse

/-- `trim`. -/
def trim (s : String) : String := trimMatches isWhitespace s

/-- `trim_end_matches`. -/
def trimEndMatches (p : Char → Bool) (s : String) : String :=
  .ofList (s.toList.reverse.dropWhile p).reverse

/-- `to_ascii_lowercase`. -/
def toAsciiLowercase (s : String) : String := .ofList (s.toList.map Char.toLower)

/-- `split_whitespace`. -/
def splitWhitespace (s : String) : List String :=
  ((s.toList.splitOnP isWhitespace).filter (· ≠ [])).map .ofList

/-- `eq_ignore_ascii_case`. -/
def eqIgnoreAsciiCase (s t : String) : Bool := toAsciiLowercase s = toAsciiLowercase t

/-- The lines of a text, with the line so far, last character first. -/
def linesFrom : List Char → List Char → List String
  | [], [] => []
  | line, [] => [.ofList line.reverse]
  | '\r' :: line, '\n' :: cs => .ofList line.reverse :: linesFrom [] cs
  | line, '\n' :: cs => .ofList line.reverse :: linesFrom [] cs
  | line, c :: cs => linesFrom (c :: line) cs

/-- `lines`. -/
def lines (s : String) : List String := linesFrom [] s.toList

variable {s : String}

theorem toAsciiLowercase_eq_self (h : ∀ c ∈ s.toList, c.isUpper = false) :
    toAsciiLowercase s = s := by
  have hmap : s.toList.map Char.toLower = s.toList := by
    refine (List.map_congr_left fun c hc => ?_).trans (List.map_id _)
    exact Char.toLower_eq_of_not_isUpper (by simp [h c hc])
  rw [toAsciiLowercase, hmap, String.ofList_toList]

variable {c : Char}

/-- The first word of a text. -/
theorem splitWhitespace_append {word : List Char} (hne : word ≠ [])
    (hword : ∀ c ∈ word, isWhitespace c = false) (hc : isWhitespace c = true) (rest : List Char) :
    splitWhitespace (.ofList (word ++ c :: rest))
      = .ofList word :: splitWhitespace (.ofList rest) := by
  have hsplit : (word ++ c :: rest).splitOnP isWhitespace
      = word :: rest.splitOnP isWhitespace :=
    List.splitOnP_append_cons_of_forall_mem hword c hc rest
  simp only [splitWhitespace, String.toList_ofList, hsplit]
  rw [List.filter_cons_of_pos (by simpa using hne), List.map_cons]

theorem stripPrefix_eq_some_iff {pattern t : String} :
    stripPrefix pattern s = some t ↔ s = pattern ++ t := by
  rw [stripPrefix, Option.map_eq_some_iff, ← String.toList_inj, String.toList_append]
  constructor
  · rintro ⟨rest, hrest, rfl⟩
    obtain ⟨start, hs, hstart⟩ := List.dropPrefix?_eq_some_iff.mp hrest
    rw [hs, eq_of_beq hstart, String.toList_ofList]
  · intro h
    refine ⟨t.toList, ?_, String.ofList_toList⟩
    exact List.dropPrefix?_eq_some_iff.mpr ⟨pattern.toList, h, beq_self_eq_true _⟩

/-- The first `c` of a text is the one behind a part without it. -/
theorem splitOnce_append (h : c ∉ s.toList) (t : String) :
    splitOnce c (s ++ .singleton c ++ t) = some (s, t) := by
  have hs : ∀ a ∈ s.toList, decide (a ≠ c) = true := by
    intro a ha
    simp only [decide_eq_true_eq]
    rintro rfl
    exact h ha
  have hlist : (s ++ String.singleton c ++ t).toList = s.toList ++ c :: t.toList := by simp
  unfold splitOnce
  rw [hlist, List.dropWhile_append_of_pos hs, List.takeWhile_append_of_pos hs,
    List.dropWhile_cons_of_neg (by simp), List.takeWhile_cons_of_neg (by simp)]
  simp

/-- The parts, put together again. -/
theorem eq_append_of_splitOnce {a b : String} (h : splitOnce c s = some (a, b)) :
    s = a ++ .singleton c ++ b := by
  have htake := List.takeWhile_append_dropWhile (p := fun d => decide (d ≠ c)) (l := s.toList)
  unfold splitOnce at h
  split at h
  next => cases h
  next d rest hdrop =>
    cases h
    have hd : d = c := by
      have hne := List.head?_dropWhile_not (fun d => decide (d ≠ c)) s.toList
      rw [hdrop] at hne
      simpa using hne
    rw [hdrop, hd] at htake
    rw [← String.toList_inj, String.toList_append, String.toList_append, String.toList_ofList,
      String.toList_ofList, String.toList_singleton, List.append_assoc, List.singleton_append]
    exact htake.symm

theorem split_intercalate {pieces : List (List Char)} (hne : pieces ≠ [])
    (h : ∀ piece ∈ pieces, c ∉ piece) :
    split c (.ofList ([c].intercalate pieces)) = pieces.map .ofList := by
  rw [split, String.toList_ofList, List.splitOn_intercalate c h hne]

theorem split_eq_singleton_iff : split c s = [s] ↔ c ∉ s.toList := by
  constructor
  · intro h hmem
    obtain ⟨before, after, heq⟩ := List.append_of_mem hmem
    have hlength := congrArg List.length h
    rw [split, heq, List.splitOn_append_cons_self, List.map_append, List.length_append,
      List.length_map, List.length_map, List.length_singleton] at hlength
    have hne : ∀ cs : List Char, 0 < (cs.splitOn c).length :=
      fun cs => List.length_pos_of_ne_nil (List.splitOn_ne_nil c cs)
    have hbefore := hne before
    have hafter := hne after
    omega
  · intro h
    rw [split, List.splitOn_eq_singleton h, List.map_singleton, String.ofList_toList]

variable {p : Char → Bool} {cs : List Char}

theorem dropWhile_eq_self (h : ∀ c ∈ cs, p c = false) : cs.dropWhile p = cs := by
  cases cs with
  | nil => rfl
  | cons c cs => exact List.dropWhile_cons_of_neg (by simp [h c (by simp)])

theorem trimMatches_eq_self (h : ∀ c ∈ s.toList, p c = false) : trimMatches p s = s := by
  have hreverse : ∀ c ∈ s.toList.reverse, p c = false :=
    fun c hc => h c (List.mem_reverse.mp hc)
  rw [trimMatches, dropWhile_eq_self h, dropWhile_eq_self hreverse, List.reverse_reverse,
    String.ofList_toList]

/-- What is cut off at both ends. -/
theorem trimMatches_append {before after : List Char} (hbefore : ∀ c ∈ before, p c = true)
    (hafter : ∀ c ∈ after, p c = true) (hne : cs ≠ []) (hcs : ∀ c ∈ cs, p c = false) :
    trimMatches p (.ofList (before ++ cs ++ after)) = .ofList cs := by
  have hstart : (cs ++ after).dropWhile p = cs ++ after := by
    obtain ⟨c, cs, rfl⟩ := List.exists_cons_of_ne_nil hne
    exact List.dropWhile_cons_of_neg (by simp [hcs c (by simp)])
  have hreverse : ∀ c ∈ cs.reverse, p c = false := fun c hc => hcs c (List.mem_reverse.mp hc)
  have hend : ∀ c ∈ after.reverse, p c = true := fun c hc => hafter c (List.mem_reverse.mp hc)
  rw [trimMatches, String.toList_ofList, List.append_assoc,
    List.dropWhile_append_of_pos hbefore, hstart, List.reverse_append,
    List.dropWhile_append_of_pos hend, dropWhile_eq_self hreverse, List.reverse_reverse]

theorem mem_dropWhile (hc : p c = false) (h : c ∈ cs) : c ∈ cs.dropWhile p := by
  have hsplit := List.takeWhile_append_dropWhile (p := p) (l := cs)
  rw [← hsplit, List.mem_append] at h
  refine h.resolve_left fun htake => ?_
  rw [List.mem_takeWhile_imp htake] at hc
  cases hc

/-- A character that is not cut off. -/
theorem mem_trimMatches (hc : p c = false) (h : c ∈ s.toList) : c ∈ (trimMatches p s).toList := by
  rw [trimMatches, String.toList_ofList, List.mem_reverse]
  exact mem_dropWhile hc (List.mem_reverse.mpr (mem_dropWhile hc h))

theorem le_decimal (n : Nat) (cs : List Char) : n ≤ decimal n cs := by
  induction cs generalizing n with
  | nil => exact le_rfl
  | cons c cs ih =>
    have hle := ih (n * 10 + (c.toNat - '0'.toNat))
    rw [decimal, List.foldl_cons]
    rw [decimal] at hle
    omega

variable {bound n : Nat}

theorem parseDigits_toOption (hn : n ≤ bound) (h : ∀ c ∈ cs, c.isDigit = true) :
    (parseDigits bound n cs).toOption
      = if decimal n cs ≤ bound then some (decimal n cs) else none := by
  induction cs generalizing n with
  | nil =>
    rw [parseDigits, decimal, List.foldl_nil, if_pos hn]
    rfl
  | cons c cs ih =>
    obtain ⟨hc, hcs⟩ := List.forall_mem_cons.mp h
    have hle := le_decimal (n * 10 + (c.toNat - '0'.toNat)) cs
    have hcons : decimal n (c :: cs) = decimal (n * 10 + (c.toNat - '0'.toNat)) cs := rfl
    rw [parseDigits, if_pos hc, hcons]
    dsimp only
    split
    next hbound =>
      rw [if_neg (by omega)]
      rfl
    next hbound => exact ih (Nat.not_lt.mp hbound) hcs

theorem parseUnsigned_toOption (hne : cs ≠ []) (h : ∀ c ∈ cs, c.isDigit = true) :
    (parseUnsigned bound (.ofList cs)).toOption
      = if decimal 0 cs ≤ bound then some (decimal 0 cs) else none := by
  have hplus : '+' ∉ cs := fun hmem => absurd (h '+' hmem) (by decide)
  rw [← parseDigits_toOption bound.zero_le h, parseUnsigned, String.toList_ofList]
  split
  next => exact absurd rfl hne
  next => exact absurd (List.mem_singleton_self _) hplus
  next => exact absurd List.mem_cons_self hplus
  next => rfl

variable {m : Nat}

/-- A number is digits, but for a sign. -/
theorem isDigit_of_parseDigits (h : parseDigits bound n cs = .ok m) :
    ∀ c ∈ cs, c.isDigit = true := by
  induction cs generalizing n with
  | nil => simp
  | cons c cs ih =>
    rw [parseDigits] at h
    split at h
    next hc =>
      dsimp only at h
      split at h
      next => cases h
      next => exact List.forall_mem_cons.mpr ⟨hc, ih h⟩
    next => cases h

theorem le_of_parseDigits (hn : n ≤ bound) (h : parseDigits bound n cs = .ok m) : m ≤ bound := by
  induction cs generalizing n with
  | nil =>
    cases h
    exact hn
  | cons c cs ih =>
    rw [parseDigits] at h
    split at h
    next =>
      dsimp only at h
      split at h
      next => cases h
      next hbound => exact ih (Nat.not_lt.mp hbound) h
    next => cases h

/-- What is parsed are digits, behind a sign or not. -/
theorem parseUnsigned_eq_ok (h : parseUnsigned bound s = .ok m) :
    ∃ cs, (s.toList = cs ∨ s.toList = '+' :: cs) ∧ parseDigits bound 0 cs = .ok m := by
  unfold parseUnsigned at h
  split at h
  next => cases h
  next => cases h
  next cs _ hs => exact ⟨cs, .inr hs, h⟩
  next => exact ⟨_, .inl rfl, h⟩

theorem isDigit_of_parseUnsigned (h : parseUnsigned bound s = .ok m) :
    ∀ c ∈ s.toList, c.isDigit = true ∨ c = '+' := by
  obtain ⟨cs, hs, h⟩ := parseUnsigned_eq_ok h
  have hdigits := fun c hc => Or.inl (b := c = '+') (isDigit_of_parseDigits h c hc)
  rcases hs with hs | hs
  · rw [hs]
    exact hdigits
  · rw [hs]
    exact List.forall_mem_cons.mpr ⟨.inr rfl, hdigits⟩

theorem le_of_parseUnsigned (h : parseUnsigned bound s = .ok m) : m ≤ bound := by
  obtain ⟨cs, -, h⟩ := parseUnsigned_eq_ok h
  exact le_of_parseDigits bound.zero_le h

/-! ### Numbers in decimal -/

theorem isDigit_toString (h : c ∈ (toString n).toList) : c.isDigit = true := by
  rw [Nat.toString_eq_repr, Nat.toList_repr] at h
  exact Nat.isDigit_of_mem_toDigits (by decide) (by decide) h

theorem toString_ne_nil (n : Nat) : (toString n).toList ≠ [] := by
  rw [Nat.toString_eq_repr, Nat.toList_repr]
  exact Nat.toDigits_ne_nil

theorem decimal_toString (n : Nat) : decimal 0 (toString n).toList = n := by
  have hfold : decimal 0 (toString n).toList = Nat.ofDigitChars 10 (Nat.toDigits 10 n) 0 := by
    rw [decimal, Nat.ofDigitChars, Nat.toString_eq_repr, Nat.toList_repr]
    simp only [Nat.mul_comm]
  rw [hfold, Nat.ofDigitChars_ten_toDigits]

theorem parseUnsigned_toString (h : n ≤ bound) : parseUnsigned bound (toString n) = .ok n := by
  have hparse : (parseUnsigned bound (.ofList (toString n).toList)).toOption = _ :=
    parseUnsigned_toOption (toString_ne_nil n) fun _ hc => isDigit_toString hc
  rw [String.ofList_toList, decimal_toString, if_pos h] at hparse
  cases hok : parseUnsigned bound (toString n) with
  | error error =>
    rw [hok] at hparse
    cases hparse
  | ok m =>
    rw [hok] at hparse
    rw [Option.some.inj hparse]

end Str
