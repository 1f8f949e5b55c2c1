import MediumOverlay.Lib.Str
import MediumOverlay.Lib.Utf8

/-!
# Texts of Swift

A text is a sequence of characters, and a character may be several Unicode scalars.  A line
end of two scalars is one character, and so is a letter with the marks behind it.  Texts are
searched and split at the ends of characters.  Which scalars belong together, and which are the
same but for their case, is left to Unicode (`Characters`).

A text is the list of its scalars here.  A range is a part of it, with what is before and what
is behind.
-/

namespace SwiftString

/-- What Unicode says of adjacent scalars, and of case. -/
structure Characters where
  /-- The scalars belong to one character. -/
  joins : Char → Char → Bool
  /-- Case folding. -/
  fold : Char → Char
  joins_ascii : ∀ {c d}, Utf8.isAscii c = true → Utf8.isAscii d = true → joins c d = true →
    c = '\r' ∧ d = '\n'
  joins_cr : ∀ c, joins c '\r' = false
  lf_joins : ∀ c, joins '\n' c = false
  fold_ascii : ∀ {c}, Utf8.isAscii c = true → fold c = c.toLower
  fold_other : ∀ {c}, Utf8.isAscii c = false → Utf8.isAscii (fold c) = true →
    (fold c).isAlpha = true

/-- Every scalar is a character, but for those of a line end. -/
def Characters.plain : Characters where
  joins c d := c = '\r' && d = '\n'
  fold := Char.toLower
  joins_ascii _ _ h := by simpa using h
  joins_cr c := by simp
  lf_joins c := by simp
  fold_ascii _ := rfl
  fold_other {c} hc hfold := by
    have hnot : ¬ c.isUpper = true := by
      simp only [Utf8.isAscii, decide_eq_false_iff_not, Nat.not_lt] at hc
      simp only [Char.isUpper, decide_eq_true_eq, UInt32.le_iff_toNat_le, ge_iff_le,
        Char.reduceVal, UInt32.reduceToNat, not_and, Nat.not_le]
      have hnat : c.val.toNat = c.toNat := rfl
      omega
    rw [Char.toLower_eq_of_not_isUpper hnot, hc] at hfold
    cases hfold

variable (u : Characters)

/-- A character ends between the scalars. -/
def Characters.isBoundary (before after : Option Char) : Bool :=
  match before, after with
  | some c, some d => !u.joins c d
  | _, _ => true

theorem Characters.isBoundary_cr (before : Option Char) :
    u.isBoundary before (some '\r') = true := by
  cases before with
  | none => rfl
  | some c => simp [isBoundary, u.joins_cr]

theorem Characters.isBoundary_lf (after : Option Char) :
    u.isBoundary (some '\n') after = true := by
  cases after with
  | none => rfl
  | some c => simp [isBoundary, u.lf_joins]

/-! ## Ranges -/

/-- The scalars that the pattern stands for, and what is behind them. -/
def matchScalars (same : Char → Char → Bool) :
    List Char → List Char → Option (List Char × List Char)
  | [], cs => some ([], cs)
  | _ :: _, [] => none
  | p :: pattern, c :: cs =>
    if same c p then (matchScalars same pattern cs).map fun r => (c :: r.1, r.2) else none

/-- The text starts with the pattern, and with its characters. -/
def matchStart (same : Char → Char → Bool) (pattern : List Char) (before : Option Char)
    (cs : List Char) : Option (List Char × List Char) :=
  (matchScalars same pattern cs).filter fun r =>
    u.isBoundary before r.1.head? && u.isBoundary r.1.getLast? r.2.head?

/-- `range(of:)`: what is before the first match, the match, and what is behind it. -/
def rangeOf (same : Char → Char → Bool) (pattern : List Char) (before : Option Char) :
    List Char → Option (List Char × List Char × List Char)
  | [] => none
  | c :: cs =>
    match matchStart u same pattern before (c :: cs) with
    | some r => some ([], r)
    | none => (rangeOf same pattern (some c) cs).map fun r => (c :: r.1, r.2)

/-- The same scalar. -/
def exactly (c d : Char) : Bool := c = d

/-! ## Components -/

/-- The parts between line ends, with what was read of the first one. -/
def linePartsFrom : List Char → List Char → List (List Char)
  | part, [] => [part.reverse]
  | part, '\r' :: '\n' :: cs => part.reverse :: linePartsFrom [] cs
  | part, c :: cs => linePartsFrom (c :: part) cs

/-- `split(separator: "\r\n")`.  Empty parts are left out. -/
def splitLines (cs : List Char) : List (List Char) := (linePartsFrom [] cs).filter (· ≠ [])

/-- The text without the separators it starts with. -/
def dropSeparators (separator : Char) : List Char → List Char
  | [] => []
  | c :: cs =>
    if c = separator && u.isBoundary (some c) cs.head? then dropSeparators separator cs
    else c :: cs

/-- What is before and what is behind the first separator. -/
def splitAtFirst (separator : Char) (before : Option Char) :
    List Char → Option (List Char × List Char)
  | [] => none
  | c :: cs =>
    if c = separator && u.isBoundary before (some c) && u.isBoundary (some c) cs.head? then
      some ([], cs)
    else (splitAtFirst separator (some c) cs).map fun r => (c :: r.1, r.2)

/-- `split(separator:maxSplits: 1)`.  Empty parts are left out, and a separator behind one is no
split. -/
def splitOnce (separator : Char) (cs : List Char) : List (List Char) :=
  let cs := dropSeparators u separator cs
  match splitAtFirst u separator none cs with
  | none => [cs].filter (· ≠ [])
  | some (first, rest) => [first, rest].filter (· ≠ [])

/-- `CharacterSet.whitespaces`: the tabulator and the space separators. -/
def isBlank (c : Char) : Bool :=
  c.toNat = 9 || c.toNat = 32 || c.toNat = 0xa0 || c.toNat = 0x1680
    || (0x2000 ≤ c.toNat && c.toNat ≤ 0x200a) || c.toNat = 0x202f || c.toNat = 0x205f
    || c.toNat = 0x3000

/-- `trimmingCharacters(in: .whitespaces)`. -/
def trimBlanks (cs : List Char) : List Char := (Str.trimMatches isBlank (.ofList cs)).toList

/-! ## Numbers -/

/-- The number of one or more digits. -/
def magnitude (cs : List Char) : Option Nat :=
  if cs ≠ [] ∧ cs.all Char.isDigit then some (Str.decimal 0 cs) else none

/-- `Int(_:)` of a text. -/
def parseInt : List Char → Option Int
  | '-' :: cs => (magnitude cs).bind fun n => if n ≤ 2 ^ 63 then some (-n) else none
  | '+' :: cs => (magnitude cs).bind fun n => if n < 2 ^ 63 then some n else none
  | cs => (magnitude cs).bind fun n => if n < 2 ^ 63 then some n else none

variable {u}

/-! ## Searching -/

section Search

variable {same : Char → Char → Bool} {pattern : List Char} {before : Option Char}

theorem matchScalars_eq_some {cs m b : List Char} (h : matchScalars same pattern cs = some (m, b)) :
    cs = m ++ b ∧ List.Forall₂ (fun c p => same c p = true) m pattern := by
  induction pattern generalizing cs m with
  | nil =>
    cases h
    exact ⟨rfl, .nil⟩
  | cons p pattern ih =>
    cases cs with
    | nil => cases h
    | cons c cs =>
      obtain ⟨hsame, h⟩ := Option.ite_none_right_eq_some.mp h
      obtain ⟨⟨m', b'⟩, hr, heq⟩ := Option.map_eq_some_iff.mp h
      cases heq
      obtain ⟨rfl, hm⟩ := ih hr
      exact ⟨rfl, .cons hsame hm⟩

/-- A range is a part of the text that compares as the pattern does. -/
theorem rangeOf_eq_some {cs a m b : List Char}
    (h : rangeOf u same pattern before cs = some (a, m, b)) :
    cs = a ++ (m ++ b) ∧ List.Forall₂ (fun c p => same c p = true) m pattern := by
  induction cs generalizing before a with
  | nil => cases h
  | cons c cs ih =>
    rw [rangeOf] at h
    split at h
    next r hstart =>
      cases h
      exact matchScalars_eq_some (Option.filter_eq_some_iff.mp hstart).1
    next =>
      obtain ⟨⟨a', m', b'⟩, hr, heq⟩ := Option.map_eq_some_iff.mp h
      cases heq
      obtain ⟨rfl, hsame⟩ := ih hr
      exact ⟨rfl, hsame⟩

end Search

/-- Only a scalar itself is exactly that. -/
theorem eq_of_forall₂_exactly {m pattern : List Char}
    (h : List.Forall₂ (fun c p => exactly c p = true) m pattern) : m = pattern := by
  rw [← List.forall₂_eq_eq_eq]
  exact h.imp fun _ _ heq => of_decide_eq_true heq

/-! ## Splitting -/

theorem linePartsFrom_cons {c : Char} (h : c ≠ '\r') (part cs : List Char) :
    linePartsFrom part (c :: cs) = linePartsFrom (c :: part) cs :=
  linePartsFrom.eq_3 part c cs fun _ hc _ => h hc

/-- The rest of a line, and what is behind its end. -/
theorem linePartsFrom_append {line : List Char} (h : '\r' ∉ line) (part cs : List Char) :
    linePartsFrom part (line ++ '\r' :: '\n' :: cs)
      = (part.reverse ++ line) :: linePartsFrom [] cs := by
  induction line generalizing part with
  | nil => rw [List.nil_append, linePartsFrom, List.append_nil]
  | cons c line ih =>
    obtain ⟨hc, hline⟩ := not_or.mp (List.mem_cons.not.mp h)
    rw [List.cons_append, linePartsFrom_cons (Ne.symm hc), ih hline]
    simp

theorem linePartsFrom_last {line : List Char} (h : '\r' ∉ line) (part : List Char) :
    linePartsFrom part line = [part.reverse ++ line] := by
  induction line generalizing part with
  | nil => rw [linePartsFrom, List.append_nil]
  | cons c line ih =>
    obtain ⟨hc, hline⟩ := not_or.mp (List.mem_cons.not.mp h)
    rw [linePartsFrom_cons (Ne.symm hc), ih hline]
    simp

/-- The lines of a text come back. -/
theorem splitLines_intercalate {lines : List (List Char)} (hne : lines ≠ [])
    (h : ∀ line ∈ lines, line ≠ [] ∧ '\r' ∉ line) :
    splitLines (['\r', '\n'].intercalate lines) = lines := by
  have hparts : linePartsFrom [] (['\r', '\n'].intercalate lines) = lines := by
    induction lines with
    | nil => exact absurd rfl hne
    | cons line lines ih =>
      obtain ⟨hline, hlines⟩ := List.forall_mem_cons.mp h
      match lines with
      | [] =>
        rw [List.intercalate_singleton, linePartsFrom_last hline.2]
        rfl
      | next :: lines =>
        rw [List.intercalate_cons_cons, List.append_assoc, List.cons_append, List.cons_append,
          List.nil_append, linePartsFrom_append hline.2, ih (by simp) hlines]
        rfl
  rw [splitLines, hparts, List.filter_eq_self]
  exact fun line hline => decide_eq_true (h line hline).1

/-- ASCII characters are characters of their own, but for a line end. -/
theorem Characters.isBoundary_ascii {c d : Char} (hc : Utf8.isAscii c = true)
    (hd : Utf8.isAscii d = true) (hne : d ≠ '\n') : u.isBoundary (some c) (some d) = true := by
  rw [isBoundary, Bool.not_eq_true']
  exact Bool.eq_false_iff.mpr fun hjoins => hne (u.joins_ascii hc hd hjoins).2

variable {separator : Char} {cs first rest : List Char}

theorem dropSeparators_eq_self (h : cs.head? ≠ some separator) :
    dropSeparators u separator cs = cs := by
  cases cs with
  | nil => rfl
  | cons c cs =>
    have hc : ¬ (c = separator) := fun hc => h (by rw [hc, List.head?_cons])
    rw [dropSeparators, decide_eq_false hc, Bool.false_and, if_neg Bool.false_ne_true]

theorem eq_append_of_splitAtFirst {before : Option Char}
    (h : splitAtFirst u separator before cs = some (first, rest)) :
    cs = first ++ separator :: rest := by
  induction cs generalizing before first with
  | nil => cases h
  | cons c cs ih =>
    rw [splitAtFirst] at h
    split at h
    next hc =>
      cases h
      rw [Bool.and_eq_true, Bool.and_eq_true, decide_eq_true_eq] at hc
      rw [hc.1.1, List.nil_append]
    next =>
      obtain ⟨⟨first, rest⟩, hsplit, heq⟩ := Option.map_eq_some_iff.mp h
      cases heq
      rw [ih hsplit, List.cons_append]

/-- Two parts are what is before and what is behind a separator. -/
theorem eq_append_of_splitOnce (hhead : cs.head? ≠ some separator)
    (h : splitOnce u separator cs = [first, rest]) : cs = first ++ separator :: rest := by
  rw [splitOnce, dropSeparators_eq_self hhead] at h
  split at h
  next =>
    have hlength := congrArg List.length h
    have hle := List.length_filter_le (· ≠ []) [cs]
    simp only [List.length_cons, List.length_nil] at hlength hle
    omega
  next before after hsplit =>
    have hboth := (List.filter_sublist (p := (· ≠ [])) (l := [before, after])).eq_of_length
      (by rw [h]; rfl)
    cases hboth.symm.trans h
    exact eq_append_of_splitAtFirst hsplit

/-- A text is split at a separator between ASCII characters. -/
theorem splitOnce_append {name value : List Char} {d : Char} (hname : name ≠ [])
    (hmem : separator ∉ name) (hascii : ∀ c ∈ name, Utf8.isAscii c = true)
    (hseparator : Utf8.isAscii separator = true) (hne : separator ≠ '\n')
    (hd : Utf8.isAscii d = true) (hdne : d ≠ '\n') :
    splitOnce u separator (name ++ separator :: d :: value) = [name, d :: value] := by
  have hafter : u.isBoundary (some separator) (some d) = true :=
    u.isBoundary_ascii hseparator hd hdne
  have hsplit : ∀ (name : List Char) (before : Option Char), separator ∉ name →
      (∀ c ∈ name, Utf8.isAscii c = true) → u.isBoundary before (some separator) = true ∨
        name ≠ [] →
      splitAtFirst u separator before (name ++ separator :: d :: value)
        = some (name, d :: value) := by
    intro name
    induction name with
    | nil =>
      intro before _ _ hbefore
      have hbefore := hbefore.resolve_right fun h => h rfl
      simp [splitAtFirst, hbefore, hafter]
    | cons c name ih =>
      intro before hmem hascii _
      obtain ⟨hc, hmem⟩ := not_or.mp (List.mem_cons.not.mp hmem)
      obtain ⟨hcascii, hascii⟩ := List.forall_mem_cons.mp hascii
      rw [List.cons_append, splitAtFirst, decide_eq_false (Ne.symm hc), Bool.false_and,
        Bool.false_and, if_neg Bool.false_ne_true,
        ih (some c) hmem hascii (.inl (u.isBoundary_ascii hcascii hseparator hne)),
        Option.map_some]
  have hhead : (name ++ separator :: d :: value).head? ≠ some separator := by
    obtain ⟨c, name, rfl⟩ := List.exists_cons_of_ne_nil hname
    intro hhead
    rw [List.cons_append, List.head?_cons, Option.some.injEq] at hhead
    exact hmem (hhead ▸ List.mem_cons_self)
  rw [splitOnce, dropSeparators_eq_self hhead]
  rw [hsplit name none hmem hascii (.inr hname)]
  simp [hname]

/-- A numeral is read, if it is not too large. -/
theorem parseInt_digits (hne : cs ≠ []) (h : ∀ c ∈ cs, c.isDigit = true)
    (hlt : Str.decimal 0 cs < 2 ^ 63) : parseInt cs = some (Str.decimal 0 cs : Int) := by
  have hmagnitude : magnitude cs = some (Str.decimal 0 cs) :=
    if_pos ⟨hne, List.all_eq_true.mpr h⟩
  unfold parseInt
  split
  next => exact absurd (h '-' (by simp)) (by decide)
  next => exact absurd (h '+' (by simp)) (by decide)
  next => rw [hmagnitude, Option.bind_some, if_pos hlt]

end SwiftString
