import MediumOverlay.Lib.Utf8

/-!
# Queries

A query is a list of fields, `key=value`, joined by `&`.  Its readers differ in what they
decode and in what they make of a piece without `=`, so a reader is a parameter here.
All that is asked of it is that it never finds more ASCII characters than there are
(`Reads`).  The last value of a key counts.

Values may have been written as they are.  Such a value comes back exactly if there is no
`&` in it and it decodes to itself, even if a piece of one field can pass for another
field.  The reason is that what follows an `&` of a value is too short for the whole of it
(`lastValue_field`), and so the fields can be settled one by one from the last to the first
(`transparent_of_lastValue`).
-/

namespace Query

variable {read : List Char → Option (List Char × List Char)} {dec : List Char → List Char}

def field (f : List Char × List Char) : List Char := f.1 ++ '=' :: f.2

/-- What a reader finds, piece by piece. -/
def pairs (read : List Char → Option (List Char × List Char)) (query : List Char) :
    List (List Char × List Char) :=
  (query.splitOn '&').filterMap read

/-- The value of a key, the last one if there are several. -/
def lastValue {α β : Type} [DecidableEq α] (key : α) (pairs : List (α × β)) : Option β :=
  pairs.reverse.lookup key

/-- The reader splits a piece at its first `=` and decodes both parts. -/
structure Reads (read : List Char → Option (List Char × List Char))
    (dec : List Char → List Char) : Prop where
  read_field : ∀ key value, '=' ∉ key → read (field (key, value)) = some (dec key, dec value)
  countP_read_le : ∀ piece pair, read piece = some pair →
    pair.2.countP Utf8.isAscii ≤ piece.countP Utf8.isAscii
  countP_dec_le : ∀ value, (dec value).countP Utf8.isAscii ≤ value.countP Utf8.isAscii

/-- A key that a reader leaves alone. -/
structure IsKey (dec : List Char → List Char) (key : List Char) : Prop where
  notMem_eq : '=' ∉ key
  notMem_amp : '&' ∉ key
  dec_eq : dec key = key

/-- A value that a reader leaves alone. -/
def Transparent (dec : List Char → List Char) (value : List Char) : Prop :=
  '&' ∉ value ∧ dec value = value

/-! ## The last value -/

section LastValue

variable {α β : Type} [DecidableEq α] {key : α} {pairs tail : List (α × β)}

theorem lastValue_append :
    lastValue key (pairs ++ tail) = (lastValue key tail).or (lastValue key pairs) := by
  rw [lastValue, List.reverse_append, List.lookup_append, lastValue, lastValue]

theorem lastValue_singleton (pair : α × β) :
    lastValue key [pair] = if pair.1 = key then some pair.2 else none := by
  rw [lastValue, List.reverse_singleton, List.lookup_cons]
  split
  next h => rw [if_pos (beq_iff_eq.mp h).symm]
  next h => rw [if_neg fun heq => (beq_eq_false_iff_ne.mp h) heq.symm, List.lookup_nil]

theorem lastValue_concat (pair : α × β) :
    lastValue key (pairs ++ [pair])
      = if pair.1 = key then some pair.2 else lastValue key pairs := by
  rw [lastValue_append, lastValue_singleton]
  split <;> rfl

theorem lastValue_concat_self (value : β) :
    lastValue key (pairs ++ [(key, value)]) = some value := by
  rw [lastValue_concat, if_pos rfl]

theorem lastValue_cons (pair : α × β) :
    lastValue key (pair :: pairs)
      = (lastValue key pairs).or (if pair.1 = key then some pair.2 else none) := by
  rw [← List.singleton_append, lastValue_append, lastValue_singleton]

theorem mem_of_lastValue {value : β} (h : lastValue key pairs = some value) :
    (key, value) ∈ pairs := by
  obtain ⟨before, after, heq, -⟩ := List.lookup_eq_some_iff.mp h
  rw [← List.mem_reverse, heq]
  simp

theorem lastValue_eq_none (h : ∀ pair ∈ pairs, pair.1 ≠ key) : lastValue key pairs = none := by
  rw [Option.eq_none_iff_forall_not_mem]
  intro value hvalue
  exact h _ (mem_of_lastValue hvalue) rfl

theorem lastValue_map {γ δ : Type} [DecidableEq γ] {f : α → γ} (hf : f.Injective) (g : β → δ) :
    lastValue (f key) (pairs.map (Prod.map f g)) = (lastValue key pairs).map g := by
  induction pairs with
  | nil => rfl
  | cons pair rest ih =>
    rw [List.map_cons, lastValue_cons, lastValue_cons, ih, Prod.map_fst, Prod.map_snd]
    by_cases hkey : pair.1 = key
    · rw [if_pos hkey, if_pos (congrArg f hkey)]
      cases lastValue key rest <;> rfl
    · rw [if_neg hkey, if_neg fun heq => hkey (hf heq)]
      cases lastValue key rest <;> rfl

end LastValue

/-! ## Pieces -/

theorem pairs_append (query rest : List Char) :
    pairs read (query ++ '&' :: rest) = pairs read query ++ pairs read rest := by
  rw [pairs, List.splitOn_append_cons_self, List.filterMap_append, pairs, pairs]

theorem pairs_of_notMem {query : List Char} (h : '&' ∉ query) :
    pairs read query = (read query).toList := by
  rw [pairs, List.splitOn_eq_singleton h]
  cases hread : read query <;> simp [hread]

/-- The pieces of a query are parts of it. -/
theorem sublist_of_mem_splitOn {piece : List Char} (query : List Char)
    (h : piece ∈ query.splitOn '&') : piece.Sublist query := by
  by_cases hamp : '&' ∈ query
  · obtain ⟨head, rest, heq, hhead⟩ := List.eq_append_cons_of_mem hamp
    have hlength : rest.length < query.length := by
      rw [heq, List.length_append, List.length_cons]
      omega
    rw [heq, List.splitOn_append_cons_self, List.splitOn_eq_singleton hhead,
      List.mem_append, List.mem_singleton] at h
    rw [heq]
    obtain rfl | h := h
    · exact List.sublist_append_left _ _
    · exact ((sublist_of_mem_splitOn rest h).cons '&').trans (List.sublist_append_right _ _)
  · rw [List.splitOn_eq_singleton hamp, List.mem_singleton] at h
    rw [h]
termination_by query.length

theorem countP_le_of_mem_pairs (hreads : Reads read dec) {query : List Char}
    {pair : List Char × List Char} (h : pair ∈ pairs read query) :
    pair.2.countP Utf8.isAscii ≤ query.countP Utf8.isAscii := by
  obtain ⟨piece, hpiece, hread⟩ := List.mem_filterMap.mp h
  exact (hreads.countP_read_le piece pair hread).trans
    (sublist_of_mem_splitOn query hpiece).countP_le

/-! ## Fields -/

variable {key value : List Char}

theorem pairs_field (hreads : Reads read dec) (hkey : IsKey dec key) (h : '&' ∉ value) :
    pairs read (field (key, value)) = [(key, dec value)] := by
  have hamp : '&' ∉ field (key, value) := by
    simp [field, hkey.notMem_amp, h]
  rw [pairs_of_notMem hamp, hreads.read_field key value hkey.notMem_eq, hkey.dec_eq]
  rfl

theorem pairs_field_append (hreads : Reads read dec) (hkey : IsKey dec key) (h : '&' ∉ value)
    (rest : List Char) :
    pairs read (field (key, value ++ '&' :: rest)) = (key, dec value) :: pairs read rest := by
  have happend : field (key, value ++ '&' :: rest) = field (key, value) ++ '&' :: rest := by
    simp [field]
  rw [happend, pairs_append, pairs_field hreads hkey h, List.singleton_append]

/-- A field has a value for its own key, and it is the one that was written exactly if that
is transparent. -/
theorem lastValue_field (hreads : Reads read dec) (hkey : IsKey dec key) (value : List Char) :
    ∃ found, lastValue key (pairs read (field (key, value))) = some found ∧
      (found = value ↔ Transparent dec value) := by
  by_cases hamp : '&' ∈ value
  · obtain ⟨head, rest, heq, hhead⟩ := List.eq_append_cons_of_mem hamp
    have hcount : head.countP Utf8.isAscii < value.countP Utf8.isAscii ∧
        rest.countP Utf8.isAscii < value.countP Utf8.isAscii := by
      rw [heq, List.countP_append, List.countP_cons_of_pos (by decide)]
      omega
    -- Both candidates for the value have fewer ASCII characters.
    have hshort : ∀ found : List Char,
        found.countP Utf8.isAscii < value.countP Utf8.isAscii →
        (found = value ↔ Transparent dec value) := by
      intro found hlt
      refine iff_of_false ?_ fun h => h.1 hamp
      rintro rfl
      exact lt_irrefl _ hlt
    rw [heq, pairs_field_append hreads hkey hhead, lastValue_cons, if_pos rfl, ← heq]
    cases hrest : lastValue key (pairs read rest) with
    | none => exact ⟨_, rfl, hshort _ ((hreads.countP_dec_le head).trans_lt hcount.1)⟩
    | some found =>
      have hle := countP_le_of_mem_pairs hreads (mem_of_lastValue hrest)
      exact ⟨found, rfl, hshort _ (hle.trans_lt hcount.2)⟩
  · rw [pairs_field hreads hkey hamp, lastValue_singleton, if_pos rfl]
    exact ⟨_, rfl, fun h => ⟨hamp, h⟩, fun h => h.2⟩

/-! ## Lists of fields -/

theorem pairs_intercalate (query : List Char) (queries : List (List Char)) :
    pairs read (['&'].intercalate (query :: queries))
      = (query :: queries).flatMap (pairs read) := by
  induction queries generalizing query with
  | nil => simp
  | cons next rest ih =>
    rw [List.intercalate_cons_cons, List.append_assoc, List.singleton_append, pairs_append,
      ih next]
    rfl

variable {fields : List (List Char × List Char)} {tail : List (List Char × List Char)}

/-- Transparent fields are read back. -/
theorem pairs_fields (hreads : Reads read dec) (hkeys : ∀ f ∈ fields, IsKey dec f.1)
    (h : ∀ f ∈ fields, Transparent dec f.2) :
    fields.flatMap (fun f => pairs read (field f)) = fields := by
  have hfield : ∀ f ∈ fields, pairs read (field f) = [f] := by
    intro f hf
    rw [pairs_field hreads (hkeys f hf) (h f hf).1, (h f hf).2]
  rw [List.flatMap_congr hfield, List.flatMap_singleton']

/-- If the fields are read back then they are transparent. -/
theorem transparent_of_lastValue (hreads : Reads read dec) (hkeys : ∀ f ∈ fields, IsKey dec f.1)
    (hnodup : (fields.map Prod.fst).Nodup) (htail : ∀ f ∈ fields, ∀ t ∈ tail, t.1 ≠ f.1)
    (h : ∀ f ∈ fields, Transparent dec f.2 ∨
      lastValue f.1 (fields.flatMap (fun f => pairs read (field f)) ++ tail) = some f.2) :
    ∀ f ∈ fields, Transparent dec f.2 := by
  induction fields using List.reverseRecOn generalizing tail with
  | nil => simp
  | append_singleton init last ih =>
    have hlastMem : last ∈ init ++ [last] := by simp
    have hlast : Transparent dec last.2 := by
      obtain hgood | hvalue := h last hlastMem
      · exact hgood
      obtain ⟨found, hfound, hiff⟩ := lastValue_field hreads (hkeys last hlastMem) last.2
      rw [lastValue_append, lastValue_eq_none (htail last hlastMem), Option.none_or,
        List.flatMap_append, lastValue_append, List.flatMap_singleton, hfound,
        Option.some_or, Option.some_inj] at hvalue
      exact hiff.mp hvalue
    have hpairs : pairs read (field last) = [last] := by
      rw [pairs_field hreads (hkeys last hlastMem) hlast.1, hlast.2]
    rw [List.map_append, List.map_singleton, List.nodup_append] at hnodup
    -- The last field is one more pair behind the others.
    have hinit := @ih (last :: tail)
      (fun f hf => hkeys f (List.mem_append_left _ hf)) hnodup.1
      (fun f hf t ht => ?_) (fun f hf => ?_)
    · intro f hf
      obtain hf | hf := List.mem_append.mp hf
      · exact hinit f hf
      · rw [List.mem_singleton.mp hf]
        exact hlast
    · obtain rfl | ht := List.mem_cons.mp ht
      · exact fun heq => hnodup.2.2 f.1 (List.mem_map_of_mem hf) t.1 (by simp) heq.symm
      · exact htail f (List.mem_append_left _ hf) t ht
    · have hf := h f (List.mem_append_left _ hf)
      rw [List.flatMap_append, List.flatMap_singleton, hpairs, List.append_assoc,
        List.singleton_append] at hf
      exact hf

/-! ## A reader that decodes nothing -/

/-- Split a piece at its first `=`. -/
def splitPiece (piece : List Char) : Option (List Char × List Char) :=
  match piece.dropWhile (· ≠ '=') with
  | [] => none
  | _ :: rest => some (piece.takeWhile (· ≠ '='), rest)

theorem splitPiece_field (h : '=' ∉ key) (value : List Char) :
    splitPiece (field (key, value)) = some (key, value) := by
  have hkey : ∀ c ∈ key, decide (c ≠ '=') = true := by
    intro c hc
    rw [decide_eq_true_eq]
    rintro rfl
    exact h hc
  rw [splitPiece, field, List.dropWhile_append_of_pos hkey, List.takeWhile_append_of_pos hkey,
    List.dropWhile_cons_of_neg (by decide), List.takeWhile_cons_of_neg (by decide)]
  simp

theorem reads_splitPiece : Reads splitPiece id where
  read_field := fun key value h => splitPiece_field h value
  countP_read_le := by
    intro piece pair h
    unfold splitPiece at h
    split at h
    next => cases h
    next c rest hdrop =>
      cases h
      have hsublist : (c :: rest).Sublist piece := hdrop ▸ List.dropWhile_sublist _
      exact ((List.sublist_cons_self c rest).trans hsublist).countP_le
  countP_dec_le := fun _ => le_rfl

theorem transparent_id_iff : Transparent id value ↔ '&' ∉ value :=
  and_iff_left rfl

end Query
