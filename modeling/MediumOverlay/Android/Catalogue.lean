import MediumOverlay.Android.Routing
import MediumOverlay.Lib.Json

/-!
# The catalogue as a text

The app hands its services to the network stack as a JSON text that it writes by itself, with the
grants of the control plane as they are.  The network stack reads the text with `serde_json`.  It
reads what the app meant, whatever the fields of the services are (`catalogue_handed_over`).

`jsonEscape` goes over UTF-16 code units.  It changes units below 128 only, and in a well-formed
text these are characters, so it is `Json.escape` of each character.  How a grant is read, and
how the value of an unknown key is passed over, are parameters.
-/

namespace MediumOverlay.Android

open Json

/-! ## The app -/

/-- The keys of a service. -/
inductive Key where
  | id
  | label
  | kind
  | target
  | grant
  | controlPin
deriving DecidableEq

def Key.name : Key → String
  | .id => "id"
  | .label => "label"
  | .kind => "kind"
  | .target => "target"
  | .grant => "grant"
  | .controlPin => "control_pin"

/-- A value or `null`. -/
def labelText : Option String → List Char
  | some label => string label
  | none => ['n', 'u', 'l', 'l']

/-- The members of a service with their values.  There is a pin only beside a grant. -/
def serviceMembers (sessionGrants : List (String × String)) (controlPin : Option String)
    (service : PublishedService) : List (Key × List Char) :=
  let grant := sessionGrants.lookup service.id
  let pin := if grant.isSome then controlPin.filter fun pin => !isBlank pin else none
  [(.id, string service.id), (.label, labelText service.label), (.kind, string service.kind),
      (.target, string service.target)]
    ++ (grant.map fun grant => (.grant, grant.toList)).toList
    ++ (pin.map fun pin => (.controlPin, string pin)).toList

def memberText (m : Key × List Char) : List Char := string m.1.name ++ ':' :: m.2

def objectText (members : List (Key × List Char)) : List Char :=
  '{' :: [','].intercalate (members.map memberText) ++ ['}']

/-- `mediumRoutingServicesJson`. -/
def mediumRoutingServicesJson (devices : List DeviceRecord)
    (sessionGrants : List (String × String)) (controlPin : Option String) : List Char :=
  '[' :: [','].intercalate ((devices.flatMap DeviceRecord.services).map fun service =>
    objectText (serviceMembers sessionGrants controlPin service)) ++ [']']

/-! ## The network stack -/

/-- How values are read that are not texts. -/
structure Readers where
  grant : List Char → Option (SessionOpenGrant × List Char)
  ignored : List Char → Option (List Char)

/-- The text is that of a grant: an object, which is read in front of anything. -/
structure Readers.IsGrant (readers : Readers) (text : String) (grant : SessionOpenGrant) :
    Prop where
  isObject : (skipSpace text.toList).head? = some '{'
  reads : Reads readers.grant text.toList grant

/-- The fields of an `AndroidService` that were read so far. -/
structure Fields where
  id : Option String := none
  label : Option (Option String) := none
  kind : Option String := none
  target : Option String := none
  grant : Option (Option SessionOpenGrant) := none
  controlPin : Option (Option String) := none

/-- The value of a field that was not read before. -/
def readOnce {α : Type} (field : Option α) (read : List Char → Option (α × List Char))
    (cs : List Char) (set : Option α → Fields) : Option (Fields × List Char) :=
  if field.isSome then none else (read cs).map (Prod.map (fun value => set (some value)) id)

def Key.ofName (name : String) : Option Key :=
  [id, label, kind, target, grant, controlPin].find? fun key => key.name = name

/-- The value of a key.  That of an unknown key is passed over. -/
def readValue (readers : Readers) (fields : Fields) (key : Option Key) (cs : List Char) :
    Option (Fields × List Char) :=
  match key with
  | some .id => readOnce fields.id readString cs fun id => { fields with id }
  | some .label =>
    readOnce fields.label (readOption readString) cs fun label => { fields with label }
  | some .kind => readOnce fields.kind readString cs fun kind => { fields with kind }
  | some .target => readOnce fields.target readString cs fun target => { fields with target }
  | some .grant =>
    readOnce fields.grant (readOption readers.grant) cs fun grant => { fields with grant }
  | some .controlPin =>
    readOnce fields.controlPin (readOption readString) cs fun controlPin =>
      { fields with controlPin }
  | none => (readers.ignored cs).map fun rest => (fields, rest)

/-- At most `fuel` members and the closing brace. -/
def readMembers (readers : Readers) : Nat → Fields → List Char → Option (Fields × List Char)
  | 0, _, _ => none
  | fuel + 1, fields, cs => do
    let (key, rest) ← readString cs
    match skipSpace rest with
    | ':' :: rest =>
      let (fields, rest) ← readValue readers fields (Key.ofName key) rest
      match skipSpace rest with
      | ',' :: rest => readMembers readers fuel fields rest
      | '}' :: rest => some (fields, rest)
      | _ => none
    | _ => none

/-- The service of the fields, with the defaults. -/
def Fields.service (fields : Fields) : Option AndroidService := do
  return ⟨← fields.id, fields.label.join, fields.kind.getD "https", ← fields.target,
    fields.grant.join, fields.controlPin.join⟩

def readService (readers : Readers) (cs : List Char) : Option (AndroidService × List Char) :=
  match skipSpace cs with
  | '{' :: cs => do
    let (fields, rest) ← readMembers readers cs.length {} cs
    return (← fields.service, rest)
  | _ => none

/-- `parse_services`. -/
def parseServicesJson (readers : Readers) (json : List Char) : Option ServiceCatalog := do
  let (services, rest) ← readArray (readService readers) json
  if skipSpace rest = [] then some (parseServices services) else none

/-! ## A service -/

/-- The members are read one after the other. -/
inductive Follows (readers : Readers) : Fields → List (Key × List Char) → Fields → Prop where
  | nil (fields : Fields) : Follows readers fields [] fields
  | cons {fields fields' final : Fields} {key : Key} {value : List Char}
      {members : List (Key × List Char)}
      (reads : Reads (readValue readers fields (some key)) value fields')
      (follows : Follows readers fields' members final) :
      Follows readers fields ((key, value) :: members) final

variable {readers : Readers} {fields fields' final : Fields} {key : Key} {value : List Char}
  {members : List (Key × List Char)}

theorem Key.ofName_name (key : Key) : ofName key.name = some key := by cases key <;> decide

/-- A field that was not read before comes first. -/
theorem Follows.field {α : Type} {read : List Char → Option (α × List Char)} {a : α}
    (key : Key) (set : Option α → Fields) (h : Reads read value a)
    (hvalue : ∀ cs, readValue readers fields key cs = readOnce none read cs set)
    (follows : Follows readers (set (some a)) members final) :
    Follows readers fields ((key, value) :: members) final := by
  refine .cons (fun rest => ?_) follows
  obtain ⟨rest', hread, hrest⟩ := h rest
  refine ⟨rest', ?_, hrest⟩
  rw [hvalue, readOnce, hread]
  rfl

theorem readMembers_member (h : Reads (readValue readers fields key) value fields') (fuel : Nat)
    (rest : List Char) :
    readMembers readers (fuel + 1) fields (memberText (key, value) ++ rest)
      = match skipSpace rest with
        | ',' :: rest => readMembers readers fuel fields' rest
        | '}' :: rest => some (fields', rest)
        | _ => none := by
  obtain ⟨rest', hread, hrest⟩ := h rest
  rw [memberText, List.append_assoc, readMembers, readString_string]
  show (readValue readers fields (Key.ofName key.name) (value ++ rest)).bind _ = _
  rw [key.ofName_name, hread, Option.bind_some, ← hrest]

theorem readMembers_follows (h : Follows readers fields members final) (hne : members ≠ [])
    {fuel : Nat} (hfuel : members.length ≤ fuel) (rest : List Char) :
    readMembers readers fuel fields ([','].intercalate (members.map memberText) ++ '}' :: rest)
      = some (final, rest) := by
  induction h generalizing fuel with
  | nil => exact absurd rfl hne
  | @cons _ _ _ _ _ members reads follows ih =>
    cases fuel with
    | zero => cases hfuel
    | succ fuel =>
      cases members with
      | nil =>
        cases follows
        rw [List.map_singleton, List.intercalate_singleton]
        exact readMembers_member reads fuel _
      | cons next members =>
        have hrest := ih (List.cons_ne_nil _ _) (Nat.le_of_succ_le_succ hfuel)
        rw [List.map_cons, List.map_cons, List.intercalate_cons_cons, List.append_assoc,
          List.append_assoc, ← hrest]
        exact readMembers_member reads fuel _

/-- An object is read as the service of its members. -/
theorem reads_objectText (h : Follows readers {} members final) (hne : members ≠ [])
    {service : AndroidService} (hfinal : final.service = some service) :
    Reads (readService readers) (objectText members) service := by
  intro rest
  refine ⟨rest, ?_, rfl⟩
  have hfuel : members.length
      ≤ ([','].intercalate (members.map memberText) ++ '}' :: rest).length := by
    have hle : members.length ≤ ([','].intercalate (members.map memberText)).length :=
      length_le_intercalate fun m _ => by simp [memberText]
    rw [List.length_append]
    omega
  rw [objectText, List.append_assoc, List.cons_append, List.singleton_append]
  show (readMembers readers _ {} _).bind _ = _
  rw [readMembers_follows h hne hfuel, Option.bind_some]
  simp [hfinal]

theorem reads_labelText (label : Option String) :
    Reads (readOption readString) (labelText label) label := by
  cases label with
  | none => exact reads_null readString
  | some label => exact (reads_string label).some (c := '"') (by decide) rfl

/-- The members that every service has are read, and then the others. -/
theorem follows_append (service : PublishedService)
    (h : Follows readers ⟨service.id, some service.label, service.kind, service.target, none, none⟩
      members final) :
    Follows readers {} ([(.id, string service.id), (.label, labelText service.label),
      (.kind, string service.kind), (.target, string service.target)] ++ members) final := by
  refine .field .id (⟨·, none, none, none, none, none⟩) (reads_string _) (fun _ => rfl) ?_
  refine .field .label (⟨service.id, ·, none, none, none, none⟩) (reads_labelText _)
    (fun _ => rfl) ?_
  refine .field .kind (⟨service.id, some service.label, ·, none, none, none⟩) (reads_string _)
    (fun _ => rfl) ?_
  exact .field .target (⟨service.id, some service.label, service.kind, ·, none, none⟩)
    (reads_string _) (fun _ => rfl) h

/-- What the app writes for a service is read as the service, with its grant and the pin. -/
theorem reads_service {texts : List (String × String)} {grant : Option SessionOpenGrant}
    (controlPin : Option String) (service : PublishedService)
    (hgrant : Option.Rel readers.IsGrant (texts.lookup service.id) grant) :
    Reads (readService readers) (objectText (serviceMembers texts controlPin service))
      ⟨service.id, service.label, service.kind, service.target, grant,
        if grant.isSome then controlPin.filter fun pin => !isBlank pin else none⟩ := by
  unfold serviceMembers
  generalize texts.lookup service.id = text at hgrant
  cases hgrant with
  | none =>
    exact reads_objectText (follows_append service (.nil _)) (List.cons_ne_nil _ _) rfl
  | @some text grant h =>
    have hgrant {members final} (follows : Follows readers ⟨service.id, some service.label,
        service.kind, service.target, some grant, none⟩ members final) :=
      follows_append service <| .field .grant
        (⟨service.id, some service.label, service.kind, service.target, ·, none⟩)
        (h.reads.some (by decide) h.isObject) (fun _ => rfl) follows
    dsimp only [Option.isSome_some]
    rw [if_pos rfl]
    cases controlPin.filter fun pin => !isBlank pin with
    | none => exact reads_objectText (hgrant (.nil _)) (List.cons_ne_nil _ _) rfl
    | some pin =>
      have hpin := hgrant <| .field .controlPin
        (⟨service.id, some service.label, service.kind, service.target, some grant, ·⟩)
        (reads_labelText (some pin)) (fun _ => rfl) (.nil _)
      exact reads_objectText hpin (List.cons_ne_nil _ _) rfl

/-! ## The catalogue -/

theorem lookup_rel {texts : List (String × String)} {grants : List (String × SessionOpenGrant)}
    (h : List.Forall₂ (fun t g => t.1 = g.1 ∧ readers.IsGrant t.2 g.2) texts grants) (id : String) :
    Option.Rel readers.IsGrant (texts.lookup id) (grants.lookup id) := by
  induction h with
  | nil => exact .none
  | @cons t g texts grants hhead _ ih =>
    obtain ⟨heq, hgrant⟩ := hhead
    rw [List.lookup_cons, List.lookup_cons, heq]
    split
    next => exact .some hgrant
    next => exact ih

/-- The route of a service: the session of its grant, or its target. -/
def routeOf (grants : List (String × SessionOpenGrant)) (controlPin : Option String)
    (service : PublishedService) : BackendRoute :=
  match grants.lookup service.id with
  | some grant => .sessionGrant grant (controlPin.filter fun pin => !isBlank pin)
  | none => .directTarget service.target

theorem routes_parseServices (devices : List DeviceRecord)
    (grants : List (String × SessionOpenGrant)) (controlPin : Option String) :
    (parseServices (mediumRoutingServices devices grants controlPin)).routes
      = ((devices.flatMap DeviceRecord.services).map fun service =>
        (service.id, routeOf grants controlPin service)).reverse := by
  simp only [parseServices, mediumRoutingServices, List.map_map, Function.comp_def]
  congr 2
  funext service
  cases hgrant : grants.lookup service.id <;> simp [AndroidService.route, routeOf, hgrant]

/-- **Hand-over.**  What the app writes is read as its services with their grants.  So the network
stack has the services of all devices in order, and the route of an id is that of the last service
with it. -/
theorem catalogue_handed_over (readers : Readers) (devices : List DeviceRecord)
    (texts : List (String × String)) (grants : List (String × SessionOpenGrant))
    (hgrants : List.Forall₂ (fun t g => t.1 = g.1 ∧ readers.IsGrant t.2 g.2) texts grants)
    (controlPin : Option String) :
    ∃ catalog, parseServicesJson readers (mediumRoutingServicesJson devices texts controlPin)
        = some catalog
      ∧ catalog = parseServices (mediumRoutingServices devices grants controlPin)
      ∧ catalog.services = (devices.flatMap DeviceRecord.services).map
        (fun service => ⟨service.id, service.label, service.kind⟩)
      ∧ (∀ before service after,
        devices.flatMap DeviceRecord.services = before ++ service :: after →
        (∀ other ∈ after, other.id ≠ service.id) →
        catalog.routes.lookup service.id = some (routeOf grants controlPin service))
      ∧ ∀ id, (∀ service ∈ devices.flatMap DeviceRecord.services, service.id ≠ id) →
        catalog.routes.lookup id = none := by
  have hread : parseServicesJson readers (mediumRoutingServicesJson devices texts controlPin)
      = some (parseServices (mediumRoutingServices devices grants controlPin)) := by
    have harray := readArray_intercalate (c := '{') (by decide) (by decide)
      (fun service _ => rfl)
      (fun service (_ : service ∈ devices.flatMap DeviceRecord.services) =>
        reads_service controlPin service (lookup_rel hgrants service.id)) []
    rw [parseServicesJson, mediumRoutingServicesJson, harray]
    rfl
  refine ⟨_, hread, rfl, ?_, ?_, ?_⟩
  · simp [parseServices, mediumRoutingServices, Function.comp_def]
  · intro before service after hservices hlast
    rw [routes_parseServices, hservices, List.map_append, List.map_cons, List.reverse_append,
      List.reverse_cons, List.append_assoc, List.singleton_append, List.lookup_eq_some_iff]
    refine ⟨_, _, rfl, fun entry hentry => ?_⟩
    obtain ⟨other, hother, rfl⟩ := List.mem_map.mp (List.mem_reverse.mp hentry)
    exact bne_iff_ne.mpr (hlast other hother).symm
  · intro id hid
    rw [routes_parseServices, List.lookup_eq_none_iff]
    intro entry hentry
    obtain ⟨service, hservice, rfl⟩ := List.mem_map.mp (List.mem_reverse.mp hentry)
    exact bne_iff_ne.mpr (hid service hservice).symm

def sampleGrant : SessionOpenGrant := ⟨"s", "web", "node", none, ⟨"t", 0, [], none⟩⟩

/-- The grant as the control plane writes it. -/
def sampleGrantText : String :=
  "\x7b\"session_id\":\"s\",\"service_id\":\"web\",\"node_id\":\"node\",\"relay_hint\":null,"
    ++ "\"authorization\":\x7b\"token\":\"t\",\"expires_at\":\"1970-01-01T00:00:00Z\","
    ++ "\"candidates\":[]\x7d\x7d"

/-- No other grant is read. -/
def sampleReaders : Readers where
  grant cs := (cs.dropPrefix? sampleGrantText.toList).map fun rest => (sampleGrant, rest)
  ignored _ := none

/-- A service with a grant and one without. -/
def sampleDevices : List DeviceRecord :=
  [⟨"node", "node", [⟨"web", "https", some "a\"b\n", "node:443"⟩]⟩,
    ⟨"home", "home", [⟨"shell", "ssh", none, "home:22"⟩]⟩]

theorem catalogue_handed_over_sample :
    ∃ catalog, parseServicesJson sampleReaders (mediumRoutingServicesJson sampleDevices
        [("web", sampleGrantText)] (some "pin")) = some catalog
      ∧ catalog.services = [⟨"web", some "a\"b\n", "https"⟩, ⟨"shell", none, "ssh"⟩]
      ∧ catalog.routes.lookup "web" = some (.sessionGrant sampleGrant (some "pin"))
      ∧ catalog.routes.lookup "shell" = some (.directTarget "home:22")
      ∧ catalog.routes.lookup "other" = none := by
  have hgrant : sampleReaders.IsGrant sampleGrantText sampleGrant := by
    refine ⟨by decide +kernel, fun rest => ⟨rest, ?_, rfl⟩⟩
    have hdrop : (sampleGrantText.toList ++ rest).dropPrefix? sampleGrantText.toList = some rest :=
      List.dropPrefix?_eq_some_iff.mpr ⟨sampleGrantText.toList, rfl, beq_self_eq_true _⟩
    simp only [sampleReaders, hdrop, Option.map_some]
  obtain ⟨catalog, hread, -, hservices, hroutes, hnone⟩ := catalogue_handed_over sampleReaders
    sampleDevices [("web", sampleGrantText)] [("web", sampleGrant)] (.cons ⟨rfl, hgrant⟩ .nil)
    (some "pin")
  exact ⟨catalog, hread, hservices, hroutes [] _ _ rfl (by decide),
    hroutes [_] _ [] rfl (by decide), hnone "other" (by decide)⟩

end MediumOverlay.Android
