import MediumOverlay.Protocol.Hostname
import MediumOverlay.Protocol.Messages

/-!
# The models of the Android app

What the app makes of the device catalogue, and the names it shows.  Kotlin iterates
over the UTF-16 code units of a text.  A character outside the first plane is two units
there, which the loop drops like one character that is not kept
(`collect_units`), so the name of a text is the one of the other programs
(`serviceHostname_eq`).
-/

namespace MediumOverlay.Android

/-! ## Texts of Kotlin -/

/-- The UTF-16 code units of a character. -/
def codeUnits (c : Char) : List Nat :=
  if c.toNat < 0x10000 then [c.toNat]
  else [0xd800 + (c.toNat - 0x10000) / 0x400, 0xdc00 + (c.toNat - 0x10000) % 0x400]

/-- The UTF-16 code units of a text. -/
def units (value : String) : List Nat := value.toList.flatMap codeUnits

/-- `Char.isWhitespace`. -/
def isWhitespace (unit : Nat) : Bool :=
  (9 ≤ unit ∧ unit ≤ 0xd) ∨ (0x1c ≤ unit ∧ unit ≤ 0x20) ∨ unit = 0xa0 ∨ unit = 0x1680
    ∨ (0x2000 ≤ unit ∧ unit ≤ 0x200a) ∨ unit = 0x2028 ∨ unit = 0x2029 ∨ unit = 0x202f
    ∨ unit = 0x205f ∨ unit = 0x3000

/-- `isBlank`. -/
def isBlank (value : String) : Bool := (units value).all isWhitespace

/-- `trim('-')`. -/
def trimDashes (cs : List Char) : List Char := Slug.trimEnd '-' (cs.dropWhile (· = '-'))

/-! ## The catalogue -/

structure PublishedService where
  id : String
  kind : String
  label : Option String
  target : String
deriving DecidableEq, Repr

structure DeviceRecord where
  id : String
  name : String
  services : List PublishedService
deriving DecidableEq, Repr

/-- `nullableStringValue`. -/
def nullableStringValue (value : String) (isNull : Bool) : Option String :=
  if isNull || isBlank value || value = "null" then none else some value

/-- What `parseDeviceCatalog` makes of a service. -/
def parseService (service : MediumOverlay.PublishedService) : PublishedService where
  id := service.id
  kind := service.kind.asStr
  label := nullableStringValue (service.label.getD "") service.label.isNone
  target := service.target

/-- `parseDeviceCatalog`. -/
def parseDeviceCatalog (catalog : DeviceCatalogResponse) : List DeviceRecord :=
  catalog.devices.map fun device => ⟨device.id, device.name, device.services.map parseService⟩

/-! ## Names -/

/-- `displayName`. -/
def PublishedService.displayName (service : PublishedService) : String :=
  (service.label.filter fun label => !isBlank label).getD service.id

/-- A unit in `'a'..'z'` or in `'0'..'9'` is kept. -/
def keptUnit (unit : Nat) : Option Char :=
  if 97 ≤ unit ∧ unit ≤ 122 ∨ 48 ≤ unit ∧ unit ≤ 57 then some (.ofNat unit) else none

/-- `serviceHostname`. -/
def serviceHostname (lowercase : Lowercase) (value : String) : String :=
  let normalized : String :=
    .ofList (trimDashes (Slug.collect '-' [] false ((units (lowercase.kotlin value)).map keptUnit)))
  (if isBlank normalized then "service" else normalized) ++ ".medium"

/-- `hostname`. -/
def PublishedService.hostname (lowercase : Lowercase) (service : PublishedService) : String :=
  serviceHostname lowercase service.displayName

theorem keptUnit_toNat {c : Char} (h : c.isUpper = false) : keptUnit c.toNat = keptChar c := by
  have hiff : isLabelChar c = true
      ↔ 97 ≤ c.toNat ∧ c.toNat ≤ 122 ∨ 48 ≤ c.toNat ∧ c.toNat ≤ 57 := isLabelChar_iff
  rw [keptChar_of_not_isUpper h, keptUnit, Char.ofNat_toNat]
  simp only [hiff]

theorem keptUnit_codeUnits {c : Char} (h : 0x10000 ≤ c.toNat) :
    (codeUnits c).map keptUnit = [none, none] := by
  have hlong : ¬c.toNat < 0x10000 := Nat.not_lt.mpr h
  rw [codeUnits, if_neg hlong, List.map_cons, List.map_cons, List.map_nil, keptUnit,
    if_neg (by omega), keptUnit, if_neg (by omega)]

/-- The loop over the units does what the loop over the characters does. -/
theorem collect_units {cs : List Char} (h : ∀ c ∈ cs, c.isUpper = false) (output : List Char)
    (lastWasSep : Bool) :
    Slug.collect '-' output lastWasSep ((cs.flatMap codeUnits).map keptUnit)
      = Slug.collect '-' output lastWasSep (cs.map keptChar) := by
  induction cs generalizing output lastWasSep with
  | nil => rfl
  | cons c cs ih =>
    obtain ⟨hc, hcs⟩ := List.forall_mem_cons.mp h
    have hrest := Slug.collect_cons_congr (ih hcs) (keptChar c) output lastWasSep
    rw [List.flatMap_cons, List.map_append, List.map_cons]
    rcases Nat.lt_or_ge c.toNat 0x10000 with hlt | hge
    · rw [codeUnits, if_pos hlt, List.map_singleton, keptUnit_toNat hc]
      exact hrest
    · have hnone : keptChar c = none := keptChar_of_nonAscii (by omega)
      rw [keptUnit_codeUnits hge]
      rw [hnone] at hrest ⊢
      exact (Slug.collect_none_none _ _ _).trans hrest

/-- The characters of a label are units that are no whitespace. -/
theorem isWhitespace_toNat {c : Char} (h : c = '-' ∨ isLabelChar c = true) :
    c.toNat < 0x10000 ∧ isWhitespace c.toNat = false := by
  have hrange : 0x21 ≤ c.toNat ∧ c.toNat ≤ 0x7a := by
    rcases h with rfl | hlabel
    · decide
    · have := isLabelChar_iff.mp hlabel
      omega
  refine ⟨by omega, ?_⟩
  generalize c.toNat = unit at hrange
  rw [isWhitespace, decide_eq_false_iff_not]
  omega

theorem isBlank_ofList_iff {cs : List Char} (h : ∀ c ∈ cs, c = '-' ∨ isLabelChar c = true) :
    isBlank (.ofList cs) = true ↔ cs = [] := by
  rw [isBlank, units, String.toList_ofList]
  cases cs with
  | nil => simp
  | cons c cs =>
    obtain ⟨hlt, hunit⟩ := isWhitespace_toNat (h c List.mem_cons_self)
    rw [List.flatMap_cons, codeUnits, if_pos hlt]
    simp [hunit]

/-- The app names a text as the other programs do. -/
theorem serviceHostname_eq (lowercase : Lowercase) (value : String) :
    serviceHostname lowercase value = normalizeHostnameLabel lowercase value ++ ".medium" := by
  have hrust := lowercase.isUpper_eq_false value
  have hsame := lowercase.kotlin_same value
  have hcollect : Slug.collect '-' [] false ((units (lowercase.kotlin value)).map keptUnit)
      = Slug.collect '-' [] false ((value.toList.flatMap lowercase.rust).map keptChar) := by
    rw [units, collect_units (hsame.isUpper_eq_false hrust), hsame.map_keptChar]
  have hslug : trimDashes (Slug.collect '-' [] false
        ((units (lowercase.kotlin value)).map keptUnit))
      = Slug.slug '-' ((value.toList.flatMap lowercase.rust).map keptChar) := by
    rw [hcollect, trimDashes, Slug.dropWhile_collect (dash_notMem_map_keptChar _), Slug.slug]
  have hchars : ∀ c ∈ Slug.slug '-' ((value.toList.flatMap lowercase.rust).map keptChar),
      c = '-' ∨ isLabelChar c = true :=
    fun c hc => (Slug.mem_slug hc).imp_right (mem_map_keptChar hrust)
  rw [serviceHostname, normalizeHostnameLabel, hslug]
  cases houtput : Slug.slug '-' ((value.toList.flatMap lowercase.rust).map keptChar) with
  | nil => rw [if_pos ((isBlank_ofList_iff (by simp)).mpr rfl)]
  | cons c cs =>
    rw [houtput] at hchars
    rw [if_neg fun hblank => List.cons_ne_nil c cs ((isBlank_ofList_iff hchars).mp hblank)]

end MediumOverlay.Android
