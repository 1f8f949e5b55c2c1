import MediumOverlay.Lib.FormUrlencoded

/-!
# JSON texts

The compact text of an object with strings as its members.  In a string the quotation mark,
the backslash and the control characters are escaped, so that the text is on one line.

The second part reads texts: strings with any escapes, values that may be `null`, and arrays, with
blanks between the tokens.  What is written is read back in front of any rest
(`reads_string`, `readArray_intercalate`).
-/

namespace Json

open FormUrlencoded (hexValue)

def QUOTE : Char := .ofNat 34

def BACKSLASH : Char := .ofNat 92

/-- The letter of a short escape. -/
def escapeLetter : Nat → Option Char
  | 8 => some 'b'
  | 9 => some 't'
  | 10 => some 'n'
  | 12 => some 'f'
  | 13 => some 'r'
  | 34 => some QUOTE
  | 92 => some BACKSLASH
  | _ => none

def escape (c : Char) : List Char :=
  match escapeLetter c.toNat with
  | some letter => [BACKSLASH, letter]
  | none =>
    if c.toNat < 32 then
      [BACKSLASH, 'u', '0', '0', Nat.digitChar (c.toNat / 16), Nat.digitChar (c.toNat % 16)]
    else [c]

def string (s : String) : List Char := QUOTE :: (s.toList.flatMap escape ++ [QUOTE])

def member (m : String × String) : List Char := string m.1 ++ ':' :: string m.2

def memberList : List (String × String) → List Char
  | [] => []
  | [m] => member m
  | m :: ms => member m ++ ',' :: memberList ms

def object (members : List (String × String)) : List Char :=
  '{' :: (memberList members ++ ['}'])

theorem newline_notMem_escape (c : Char) : '\n' ∉ escape c := by
  have hletter : ∀ n letter, escapeLetter n = some letter → letter ≠ '\n' := by
    intro n letter h
    unfold escapeLetter at h
    split at h <;> cases h <;> decide
  have hdigit : ∀ n < 16, Nat.digitChar n ≠ '\n' := by decide
  unfold escape
  cases hescape : escapeLetter c.toNat with
  | some letter =>
    have hne := hletter _ _ hescape
    simpa [BACKSLASH, eq_comm] using hne
  | none =>
    dsimp only
    split
    next hlt =>
      have hhigh := hdigit (c.toNat / 16) (by omega)
      have hlow := hdigit (c.toNat % 16) (by omega)
      simp [BACKSLASH, hhigh.symm, hlow.symm]
    next hge =>
      rw [List.mem_singleton]
      rintro rfl
      exact hge (by decide)

theorem newline_notMem_string (s : String) : '\n' ∉ string s := by
  have hescaped : '\n' ∉ s.toList.flatMap escape := by
    rw [List.mem_flatMap]
    rintro ⟨c, -, hc⟩
    exact newline_notMem_escape c hc
  simpa [string, QUOTE] using hescaped

theorem newline_notMem_member (m : String × String) : '\n' ∉ member m := by
  simp [member, newline_notMem_string]

theorem newline_notMem_memberList (members : List (String × String)) :
    '\n' ∉ memberList members := by
  induction members with
  | nil => exact List.not_mem_nil
  | cons m ms ih =>
    cases ms with
    | nil => exact newline_notMem_member m
    | cons next ms =>
      rw [memberList, List.mem_append, List.mem_cons, not_or, not_or]
      exact ⟨newline_notMem_member m, by decide, ih⟩
      nofun

/-- The text of an object is on one line. -/
theorem newline_notMem_object (members : List (String × String)) : '\n' ∉ object members := by
  simp [object, newline_notMem_memberList]

/-! ## Reading -/

def isSpace (c : Char) : Bool := c = ' ' || c = '\n' || c = '\t' || c = '\r'

def skipSpace (cs : List Char) : List Char := cs.dropWhile isSpace

/-- The value of four digits. -/
def readHex : List Char → Option (Nat × List Char)
  | a :: b :: c :: d :: cs => do
    return ((((← hexValue a) * 16 + (← hexValue b)) * 16 + (← hexValue c)) * 16 + (← hexValue d),
      cs)
  | _ => none

/-- A character behind `\u`, of one code unit or of a pair. -/
def readUnicode (cs : List Char) : Option (Char × List Char) := do
  let (unit, rest) ← readHex cs
  if 0xd800 ≤ unit ∧ unit < 0xdc00 then
    match rest with
    | '\\' :: 'u' :: rest =>
      let (low, rest) ← readHex rest
      if 0xdc00 ≤ low ∧ low < 0xe000 then
        some (.ofNat (0x10000 + (unit - 0xd800) * 0x400 + (low - 0xdc00)), rest)
      else none
    | _ => none
  else if 0xdc00 ≤ unit ∧ unit < 0xe000 then none
  else some (.ofNat unit, rest)

/-- A character behind a backslash. -/
def readEscape : List Char → Option (Char × List Char)
  | 'b' :: cs => some (.ofNat 8, cs)
  | 't' :: cs => some (.ofNat 9, cs)
  | 'n' :: cs => some (.ofNat 10, cs)
  | 'f' :: cs => some (.ofNat 12, cs)
  | 'r' :: cs => some (.ofNat 13, cs)
  | '"' :: cs => some ('"', cs)
  | '\\' :: cs => some ('\\', cs)
  | '/' :: cs => some ('/', cs)
  | 'u' :: cs => readUnicode cs
  | _ => none

/-- The text up to the closing quote, of at most `fuel` characters, and what follows. -/
def readText : Nat → List Char → Option (List Char × List Char)
  | 0, _ => none
  | _ + 1, [] => none
  | fuel + 1, c :: cs =>
    if c = QUOTE then some ([], cs)
    else if c = BACKSLASH then do
      let (c, cs) ← readEscape cs
      (readText fuel cs).map (Prod.map (c :: ·) id)
    else if c.toNat < 32 then none
    else (readText fuel cs).map (Prod.map (c :: ·) id)

def readString (cs : List Char) : Option (String × List Char) :=
  match skipSpace cs with
  | '"' :: cs => (readText cs.length cs).map (Prod.map String.ofList id)
  | _ => none

variable {α : Type}

/-- A value or `null`. -/
def readOption (read : List Char → Option (α × List Char)) (cs : List Char) :
    Option (Option α × List Char) :=
  match skipSpace cs with
  | 'n' :: 'u' :: 'l' :: 'l' :: rest => some (none, rest)
  | 'n' :: _ => none
  | _ => (read cs).map (Prod.map some id)

/-- At most `fuel` elements and the closing bracket. -/
def readElements (read : List Char → Option (α × List Char)) :
    Nat → List Char → Option (List α × List Char)
  | 0, _ => none
  | fuel + 1, cs => do
    let (a, rest) ← read cs
    match skipSpace rest with
    | ',' :: rest => (readElements read fuel rest).map (Prod.map (a :: ·) id)
    | ']' :: rest => some ([a], rest)
    | _ => none

def readArray (read : List Char → Option (α × List Char)) (cs : List Char) :
    Option (List α × List Char) :=
  match skipSpace cs with
  | '[' :: cs =>
    match skipSpace cs with
    | ']' :: rest => some ([], rest)
    | _ => readElements read cs.length cs
  | _ => none

theorem readEscape_escapeLetter {n : Nat} {letter : Char} (h : escapeLetter n = some letter)
    (cs : List Char) : readEscape (letter :: cs) = some (.ofNat n, cs) := by
  unfold escapeLetter at h
  split at h <;> cases h <;> rfl

theorem readEscape_unicode {n : Nat} (h : n < 32) (cs : List Char) :
    readEscape ('u' :: '0' :: '0' :: Nat.digitChar (n / 16) :: Nat.digitChar (n % 16) :: cs)
      = some (.ofNat n, cs) := by
  have hdigit : ∀ n < 16, hexValue (Nat.digitChar n) = some n := by decide
  have hhex : readHex ('0' :: '0' :: Nat.digitChar (n / 16) :: Nat.digitChar (n % 16) :: cs)
      = some (n, cs) := by
    have hzero : hexValue '0' = some 0 := by decide
    simp only [readHex, hzero, hdigit _ (show n / 16 < 16 by omega),
      hdigit _ (Nat.mod_lt n (by decide)), Option.bind_eq_bind, Option.bind_some, Option.pure_def]
    congr 2
    omega
  rw [readEscape, readUnicode, hhex]
  simp only [Option.bind_eq_bind, Option.bind_some]
  rw [if_neg (by omega), if_neg (by omega)]

/-- One character of a string is read back. -/
theorem readText_escape (fuel : Nat) (c : Char) (cs : List Char) :
    readText (fuel + 1) (escape c ++ cs) = (readText fuel cs).map (Prod.map (c :: ·) id) := by
  unfold escape
  cases hletter : escapeLetter c.toNat with
  | some letter =>
    rw [List.cons_append, List.singleton_append, readText, if_neg (by decide), if_pos rfl,
      readEscape_escapeLetter hletter, Char.ofNat_toNat]
    rfl
  | none =>
    dsimp only
    split
    next hlt =>
      rw [List.cons_append, readText, if_neg (by decide), if_pos rfl]
      simp only [List.cons_append, List.nil_append]
      rw [readEscape_unicode hlt, Char.ofNat_toNat]
      rfl
    next hge =>
      have hquote : c ≠ QUOTE := by
        rintro rfl
        cases hletter
      have hbackslash : c ≠ BACKSLASH := by
        rintro rfl
        cases hletter
      rw [List.singleton_append, readText, if_neg hquote, if_neg hbackslash, if_neg hge]

theorem readText_flatMap (s rest : List Char) {fuel : Nat} (h : s.length < fuel) :
    readText fuel (s.flatMap escape ++ QUOTE :: rest) = some (s, rest) := by
  induction s generalizing fuel with
  | nil =>
    cases fuel with
    | zero => cases h
    | succ fuel => rfl
  | cons c s ih =>
    cases fuel with
    | zero => cases h
    | succ fuel =>
      rw [List.flatMap_cons, List.append_assoc, readText_escape, ih (Nat.lt_of_succ_lt_succ h)]
      rfl

theorem length_le_flatMap_escape (s : List Char) : s.length ≤ (s.flatMap escape).length := by
  have hescape : ∀ c, 1 ≤ (escape c).length := by
    intro c
    unfold escape
    split
    next => simp
    next => split <;> simp
  induction s with
  | nil => exact le_rfl
  | cons c s ih =>
    rw [List.flatMap_cons, List.length_append, List.length_cons, Nat.add_comm]
    exact Nat.add_le_add (hescape c) ih

/-- The text is read as the value, in front of anything.  Blanks at its end may be left. -/
def Reads (read : List Char → Option (α × List Char)) (text : List Char) (a : α) : Prop :=
  ∀ rest, ∃ rest', read (text ++ rest) = some (a, rest') ∧ skipSpace rest' = skipSpace rest

theorem readString_string (s : String) (rest : List Char) :
    readString (string s ++ rest) = some (s, rest) := by
  have hfuel : s.toList.length < (s.toList.flatMap escape ++ QUOTE :: rest).length := by
    have hle := length_le_flatMap_escape s.toList
    rw [List.length_append, List.length_cons]
    omega
  have hread := readText_flatMap s.toList rest hfuel
  rw [string, List.cons_append, List.append_assoc, List.singleton_append, readString]
  show (readText _ _).map _ = _
  rw [hread, Option.map_some, Prod.map, String.ofList_toList, id]

theorem reads_string (s : String) : Reads readString (string s) s := fun rest =>
  ⟨rest, readString_string s rest, rfl⟩

theorem reads_null (read : List Char → Option (α × List Char)) :
    Reads (readOption read) ['n', 'u', 'l', 'l'] none := fun rest => ⟨rest, rfl, rfl⟩

/-- A value that does not look like `null`. -/
theorem Reads.some {read : List Char → Option (α × List Char)} {text : List Char} {a : α}
    (h : Reads read text a) {c : Char} (hc : c ≠ 'n') (htext : (skipSpace text).head? = some c) :
    Reads (readOption read) text (some a) := by
  intro rest
  obtain ⟨rest', hread, hrest⟩ := h rest
  refine ⟨rest', ?_, hrest⟩
  obtain ⟨cs, hcs⟩ := List.head?_eq_some_iff.mp htext
  have hskip : skipSpace (text ++ rest) = c :: (cs ++ rest) := by
    rw [skipSpace, List.dropWhile_append, ← skipSpace, hcs]
    rfl
  unfold readOption
  split
  case h_3 => rw [hread, Option.map_some, Prod.map, id]
  all_goals
    next heq =>
      rw [hskip] at heq
      exact absurd (List.cons.inj heq).1 hc

section Arrays

variable {β : Type} {read : List Char → Option (β × List Char)} {write : α → List Char}
  {value : α → β}

/-- The elements of an array are read back. -/
theorem readElements_intercalate : ∀ {as : List α}, as ≠ [] →
    (∀ a ∈ as, Reads read (write a) (value a)) → ∀ {fuel}, as.length ≤ fuel → ∀ rest,
      readElements read fuel ([','].intercalate (as.map write) ++ ']' :: rest)
        = some (as.map value, rest)
  | [a], _, hread, fuel + 1, _, rest => by
    obtain ⟨rest', ha, hrest⟩ := hread a List.mem_cons_self (']' :: rest)
    rw [List.map_singleton, List.intercalate_singleton, readElements, ha, Option.bind_eq_bind,
      Option.bind_some]
    dsimp only
    rw [hrest]
    rfl
  | a :: b :: as, _, hread, fuel + 1, h, rest => by
    obtain ⟨ha, has⟩ := List.forall_mem_cons.mp hread
    have ih := readElements_intercalate (List.cons_ne_nil b as) has (Nat.le_of_succ_le_succ h) rest
    obtain ⟨rest', ha, hrest⟩ :=
      ha (',' :: ([','].intercalate ((b :: as).map write) ++ ']' :: rest))
    rw [List.map_cons, List.map_cons, List.intercalate_cons_cons, List.append_assoc,
      List.append_assoc, List.singleton_append, ← List.map_cons, readElements, ha,
      Option.bind_eq_bind, Option.bind_some]
    dsimp only
    rw [hrest]
    show (readElements read fuel _).map _ = _
    rw [ih]
    rfl

theorem length_le_intercalate : ∀ {as : List α}, (∀ a ∈ as, write a ≠ []) →
    as.length ≤ ([','].intercalate (as.map write)).length
  | [], _ => le_rfl
  | [a], h => by
    rw [List.map_singleton, List.intercalate_singleton]
    exact List.length_pos_of_ne_nil (h a List.mem_cons_self)
  | a :: b :: as, h => by
    have ih := length_le_intercalate (List.forall_mem_cons.mp h).2
    rw [List.map_cons, List.map_cons, List.intercalate_cons_cons, ← List.map_cons]
    simp only [List.length_append, List.length_cons, List.length_nil] at ih ⊢
    omega

/-- An array is read back if no element starts with the bracket or a blank. -/
theorem readArray_intercalate {as : List α} {c : Char} (hc : c ≠ ']') (hspace : isSpace c = false)
    (hwrite : ∀ a ∈ as, (write a).head? = some c)
    (hread : ∀ a ∈ as, Reads read (write a) (value a)) (rest : List Char) :
    readArray read ('[' :: [','].intercalate (as.map write) ++ ']' :: rest)
      = some (as.map value, rest) := by
  cases as with
  | nil => rfl
  | cons a as =>
    have hne : ∀ x ∈ a :: as, write x ≠ [] := by
      intro x hx hnil
      have hhead := hwrite x hx
      rw [hnil] at hhead
      cases hhead
    obtain ⟨cs, hcs⟩ := List.head?_eq_some_iff.mp (hwrite a List.mem_cons_self)
    obtain ⟨cs, hcs⟩ : ∃ cs, [','].intercalate ((a :: as).map write) = c :: cs := by
      cases as <;> simp [hcs]
    have hskip : skipSpace (c :: cs ++ ']' :: rest) = c :: cs ++ ']' :: rest :=
      List.dropWhile_cons_of_neg (by simp [hspace])
    have hfuel : (a :: as).length ≤ (c :: cs ++ ']' :: rest).length := by
      have hle := length_le_intercalate hne
      rw [hcs] at hle
      rw [List.length_append]
      omega
    have helements := readElements_intercalate (List.cons_ne_nil a as) hread hfuel rest
    rw [hcs] at helements ⊢
    show (match skipSpace (c :: cs ++ ']' :: rest) with
      | ']' :: rest => some ([], rest)
      | _ => readElements read (c :: cs ++ ']' :: rest).length (c :: cs ++ ']' :: rest)) = _
    rw [hskip]
    split
    next heq => exact absurd (List.cons.inj heq).1 hc
    next => exact helements

end Arrays

end Json
