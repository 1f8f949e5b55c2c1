import MediumOverlay.Lib.Slug

/-!
# Hostnames

The hostname of a service is made from its label, or from its id where it has none.
The label is put into lower case, its ASCII letters and digits are kept, and the rest
becomes single dashes.

Each program does this in its own language.  How a language maps to lower case is a
parameter, `Lowercase`: the mappings of Rust, Kotlin and Swift agree up to characters
outside ASCII, as the two forms of the Greek sigma.

A normalized label is normal (`normalizeHostnameLabel_idem`).
-/

namespace MediumOverlay

/-! ## Lower case -/

/-- Two texts that differ only in characters outside ASCII. -/
def SameAscii (s t : List Char) : Prop :=
  List.Forall₂ (fun a b => a = b ∨ 128 ≤ a.toNat ∧ 128 ≤ b.toNat) s t

/-- The mappings to lower case. -/
structure Lowercase where
  /-- `char::to_lowercase`. -/
  rust : Char → List Char
  /-- `String.lowercase` of Kotlin. -/
  kotlin : String → String
  /-- `String.lowercased` of Swift. -/
  swift : String → String
  ascii : ∀ c, c.toNat < 128 → rust c = [c.toLower]
  lower : ∀ c, ∀ d ∈ rust c, d.isUpper = false
  kotlin_same : ∀ s, SameAscii (kotlin s).toList (s.toList.flatMap rust)
  swift_same : ∀ s, SameAscii (swift s).toList (s.toList.flatMap rust)

variable {c : Char}

theorem isUpper_iff : c.isUpper = true ↔ 65 ≤ c.toNat ∧ c.toNat ≤ 90 := by
  simp [Char.isUpper, UInt32.le_iff_toNat_le]

theorem isLower_iff : c.isLower = true ↔ 97 ≤ c.toNat ∧ c.toNat ≤ 122 := by
  simp [Char.isLower, UInt32.le_iff_toNat_le]

theorem isDigit_iff : c.isDigit = true ↔ 48 ≤ c.toNat ∧ c.toNat ≤ 57 := by
  simp [Char.isDigit, UInt32.le_iff_toNat_le]

theorem isAlphanum_iff :
    c.isAlphanum = true ↔ c.isUpper = true ∨ c.isLower = true ∨ c.isDigit = true := by
  simp [Char.isAlphanum, Char.isAlpha, or_assoc]

/-! ## Labels -/

/-- `is_ascii_alphanumeric` decides what is kept. -/
def keptChar (c : Char) : Option Char := if c.isAlphanum then some c else none

/-- `normalize_hostname_label`. -/
def normalizeHostnameLabel (lowercase : Lowercase) (value : String) : String :=
  match Slug.slug '-' ((value.toList.flatMap lowercase.rust).map keptChar) with
  | [] => "service"
  | output => .ofList output

/-- A character of a normalized label, other than a dash. -/
def isLabelChar (c : Char) : Bool := c.isLower || c.isDigit

theorem isLabelChar_iff :
    isLabelChar c = true ↔ 97 ≤ c.toNat ∧ c.toNat ≤ 122 ∨ 48 ≤ c.toNat ∧ c.toNat ≤ 57 := by
  rw [isLabelChar, Bool.or_eq_true, isLower_iff, isDigit_iff]

theorem keptChar_of_not_isUpper (h : c.isUpper = false) :
    keptChar c = if isLabelChar c then some c else none := by
  simp [keptChar, isLabelChar, Char.isAlphanum, Char.isAlpha, h]

theorem keptChar_of_nonAscii (h : 128 ≤ c.toNat) : keptChar c = none := by
  rw [keptChar, if_neg]
  rw [isAlphanum_iff, isUpper_iff, isLower_iff, isDigit_iff]
  omega

/-- Texts that differ outside ASCII only are the same to the loop. -/
theorem SameAscii.map_keptChar {s t : List Char} (h : SameAscii s t) :
    s.map keptChar = t.map keptChar := by
  induction h with
  | nil => rfl
  | cons hhead _ ih =>
    rw [List.map_cons, List.map_cons, ih]
    rcases hhead with rfl | ⟨ha, hb⟩
    · rfl
    · rw [keptChar_of_nonAscii ha, keptChar_of_nonAscii hb]

theorem SameAscii.isUpper_eq_false {s t : List Char} (h : SameAscii s t)
    (ht : ∀ c ∈ t, c.isUpper = false) : ∀ c ∈ s, c.isUpper = false := by
  induction h with
  | nil => exact ht
  | cons hhead _ ih =>
    obtain ⟨hb, hrest⟩ := List.forall_mem_cons.mp ht
    refine List.forall_mem_cons.mpr ⟨?_, ih hrest⟩
    rcases hhead with rfl | ⟨ha, -⟩
    · exact hb
    · rw [Bool.eq_false_iff, ne_eq, isUpper_iff]
      omega

/-- What the loop keeps of a text in lower case. -/
theorem mem_map_keptChar {cs : List Char} (h : ∀ c ∈ cs, c.isUpper = false)
    (hc : some c ∈ cs.map keptChar) : isLabelChar c = true := by
  obtain ⟨d, hd, hkept⟩ := List.mem_map.mp hc
  rw [keptChar_of_not_isUpper (h d hd)] at hkept
  split at hkept
  next hlabel =>
    cases hkept
    exact hlabel
  next => cases hkept

theorem dash_notMem_map_keptChar (cs : List Char) : some '-' ∉ cs.map keptChar := by
  intro h
  obtain ⟨c, -, hkept⟩ := List.mem_map.mp h
  rw [keptChar] at hkept
  split at hkept
  next hc =>
    cases hkept
    exact absurd hc (by decide)
  next => cases hkept

theorem Lowercase.isUpper_eq_false (lowercase : Lowercase) (value : String) :
    ∀ c ∈ value.toList.flatMap lowercase.rust, c.isUpper = false := by
  intro c hc
  obtain ⟨d, -, hd⟩ := List.mem_flatMap.mp hc
  exact lowercase.lower d c hd

/-- A text of letters and digits in lower case, with single dashes between them. -/
structure IsLabel (label : String) : Prop where
  ne_empty : label ≠ ""
  chars : ∀ c ∈ label.toList, c = '-' ∨ isLabelChar c = true
  slug : Slug.IsSlug '-' label.toList

theorem isLabel_service : IsLabel "service" where
  ne_empty := by decide
  chars := by simp [isLabelChar, Char.isLower]
  slug := ⟨⟨by decide, by decide +kernel⟩, by decide⟩

theorem isLabel_normalizeHostnameLabel (lowercase : Lowercase) (value : String) :
    IsLabel (normalizeHostnameLabel lowercase value) := by
  have hslug := Slug.isSlug_slug (dash_notMem_map_keptChar (value.toList.flatMap lowercase.rust))
  unfold normalizeHostnameLabel
  cases houtput : Slug.slug '-' ((value.toList.flatMap lowercase.rust).map keptChar) with
  | nil => exact isLabel_service
  | cons c cs =>
    rw [houtput] at hslug
    refine ⟨by simp, fun d hd => ?_, ?_⟩
    · rw [String.toList_ofList, ← houtput] at hd
      exact (Slug.mem_slug hd).imp_right (mem_map_keptChar (lowercase.isUpper_eq_false value))
    · rwa [String.toList_ofList]

/-- A label is normal already. -/
theorem normalizeHostnameLabel_of_isLabel (lowercase : Lowercase) {label : String}
    (h : IsLabel label) : normalizeHostnameLabel lowercase label = label := by
  have hclass : ∀ c ∈ label.toList, c.toNat < 128 ∧ c.isUpper = false
      ∧ keptChar c = if c = '-' then none else some c := by
    intro c hc
    rcases h.chars c hc with rfl | hlabel
    · decide
    · have hrange := isLabelChar_iff.mp hlabel
      have hupper : c.isUpper = false := by
        rw [Bool.eq_false_iff, ne_eq, isUpper_iff]
        omega
      have hdash : c ≠ '-' := by
        rintro rfl
        exact absurd hlabel (by decide)
      rw [keptChar_of_not_isUpper hupper, if_pos hlabel, if_neg hdash]
      exact ⟨by omega, hupper, rfl⟩
  have hlower : label.toList.flatMap lowercase.rust = label.toList := by
    refine Eq.trans (List.flatMap_congr fun c hc => ?_) (List.flatMap_pure_eq_map id _ |>.trans
      (List.map_id _))
    obtain ⟨hascii, hupper, -⟩ := hclass c hc
    rw [lowercase.ascii c hascii, Char.toLower_eq_of_not_isUpper (by simp [hupper])]
    rfl
  have hkept : label.toList.map keptChar
      = label.toList.map fun c => if c = '-' then none else some c :=
    List.map_congr_left fun c hc => (hclass c hc).2.2
  rw [normalizeHostnameLabel, hlower, hkept, Slug.slug_of_isSlug h.slug]
  split
  next hnil => exact absurd (String.toList_eq_nil_iff.mp hnil) h.ne_empty
  next => exact String.ofList_toList

theorem normalizeHostnameLabel_idem (lowercase : Lowercase) (value : String) :
    normalizeHostnameLabel lowercase (normalizeHostnameLabel lowercase value)
      = normalizeHostnameLabel lowercase value :=
  normalizeHostnameLabel_of_isLabel lowercase (isLabel_normalizeHostnameLabel lowercase value)

theorem sameAscii_map_toLower (s : String) :
    SameAscii (String.ofList (s.toList.map Char.toLower)).toList
      (s.toList.flatMap fun c => [c.toLower]) := by
  have hmap : (s.toList.flatMap fun c => [c.toLower]) = s.toList.map Char.toLower := by
    induction s.toList with
    | nil => rfl
    | cons c cs ih => rw [List.flatMap_cons, ih, List.map_cons, List.singleton_append]
  rw [String.toList_ofList, hmap]
  exact List.forall₂_same.mpr fun _ _ => .inl rfl

/-- The mappings on ASCII, which leave everything else as it is. -/
def asciiLowercase : Lowercase where
  rust c := [c.toLower]
  kotlin s := .ofList (s.toList.map Char.toLower)
  swift s := .ofList (s.toList.map Char.toLower)
  ascii _ _ := rfl
  lower c d hd := by
    rw [List.mem_singleton.mp hd]
    exact Char.isUpper_toLower_eq_false c
  kotlin_same := sameAscii_map_toLower
  swift_same := sameAscii_map_toLower

end MediumOverlay
